import MoveMachine.Proofs.Machine.Round
import MoveMachine.Proofs.Image
import MoveMachine.Proofs.Traversal
import Mathlib.Data.List.Nodup

/-!
# Machines of a topology

A machine that is built from a topology follows it (`Machine.Follows`): it has a
fitted unit for each number that the topology gives a unit, of the same kind and
with the kernel that the description asks for, and its interconnect has room for
as many packets as all units together can have values in one output each.
Following a topology depends on the shape of the machine and the capacity of the
interconnect only.

A program that is valid for the topology suits every machine that follows the
topology and has the program loaded (`Machine.Follows.suits`).
-/

set_option autoImplicit false

namespace MoveMachine

/-! ## Units as described -/

/-- Searches that agree on related items find related items. -/
theorem find?_rel {Item Other : Type} {related : Item → Other → Prop} (first : Item → Bool)
    (second : Other → Bool) (agrees : ∀ item other, related item other → first item = second other)
    {items : List Item} {others : List Other} (all : List.Forall₂ related items others) :
    Option.Rel related (items.find? first) (others.find? second) := by
  induction all with
  | nil => exact .none
  | @cons item other items others isRelated _ ih =>
    cases holds : first item with
    | true =>
      rw [List.find?_cons_of_pos holds, List.find?_cons_of_pos (agrees _ _ isRelated ▸ holds)]
      exact .some isRelated
    | false =>
      have fails : ¬second other = true := by
        rw [← agrees _ _ isRelated, holds]
        decide
      rw [List.find?_cons_of_neg (by simp [holds]), List.find?_cons_of_neg fails]
      exact ih

/-- The kernel of a unit is of its kind, and at its beginning. -/
theorem Kernel.ofUnit_spec {description : UnitDescription} {kernel : Kernel}
    (made : Kernel.ofUnit description = .ok kernel) :
    kernel.type = description.type ∧ kernel.reset = kernel := by
  cases type : description.type with
  | control | loadStore | arithmetic | reorder =>
    simp only [Kernel.ofUnit, type] at made
    obtain rfl := Except.ok.inj made
    exact ⟨rfl, rfl⟩
  | streamIn =>
    simp only [Kernel.ofUnit, type] at made
    cases offset : description.number? "offset" with
    | error fault =>
      rw [offset] at made
      cases made
    | ok found =>
      rw [offset] at made
      obtain rfl := Except.ok.inj made
      exact ⟨rfl, rfl⟩
  | streamOut =>
    simp only [Kernel.ofUnit, type] at made
    cases offset : description.number? "offset" with
    | error fault =>
      rw [offset] at made
      cases made
    | ok found =>
      cases count : description.number? "count" with
      | error fault =>
        rw [offset, count] at made
        cases made
      | ok given =>
        rw [offset, count] at made
        obtain rfl := Except.ok.inj made
        exact ⟨rfl, rfl⟩

namespace ProcessingUnit

/-- A unit that is made as described. -/
structure Matches (depth : Depth) (description : UnitDescription) (unit : ProcessingUnit) :
    Prop where
  number : unit.number = description.number
  type : unit.type = description.type
  kernel : Kernel.ofUnit description = .ok unit.kernel.reset
  fitted : unit.Fitted depth

theorem matches_of_ofDescription {depth : Depth} {description : UnitDescription}
    {unit : ProcessingUnit} (made : ofDescription description depth = .ok unit) :
    Matches depth description unit := by
  cases kernelMade : Kernel.ofUnit description with
  | error fault =>
    rw [ofDescription, kernelMade] at made
    cases made
  | ok kernel =>
    rw [ofDescription, kernelMade] at made
    obtain rfl := Except.ok.inj made
    obtain ⟨type, fresh⟩ := Kernel.ofUnit_spec kernelMade
    have room : max depth.value 1 = depth.value := Nat.max_eq_left depth.positive
    refine ⟨rfl, rfl, fresh.symm ▸ kernelMade, ?_⟩
    constructor
    · rfl
    · simp [Bank.empty]
    · simp [Bank.empty]
    · simp [Bank.empty, InputBuffer.empty]
    · simp [Bank.empty, OutputBuffer.empty]
    · intro side
      cases side <;> rfl
    · intro side
      cases side <;> rfl
    · intro side
      cases side <;> exact room
    · exact type

/-- A unit that was just made is at its beginning. -/
theorem reset_of_ofDescription {depth : Depth} {description : UnitDescription}
    {unit : ProcessingUnit} (made : ofDescription description depth = .ok unit) :
    unit.reset = unit := by
  cases kernelMade : Kernel.ofUnit description with
  | error fault =>
    rw [ofDescription, kernelMade] at made
    cases made
  | ok kernel =>
    rw [ofDescription, kernelMade] at made
    obtain rfl := Except.ok.inj made
    simp [reset, Bank.empty, Bank.clear, InputBuffer.empty, InputBuffer.clear, OutputBuffer.empty,
      OutputBuffer.clear, Manager.empty, Manager.reset, (Kernel.ofUnit_spec kernelMade).2]

theorem Matches.of_reset_eq {depth : Depth} {description : UnitDescription}
    {unit other : ProcessingUnit} (isMatch : Matches depth description unit)
    (same : other.reset = unit.reset) : Matches depth description other where
  number := (number_eq_of_reset_eq same).trans isMatch.number
  type := by
    have types : other.type = unit.type := congrArg (·.type) same
    exact types.trans isMatch.type
  kernel := by
    have kernels : other.kernel.reset = unit.kernel.reset := congrArg (·.kernel) same
    rw [kernels]
    exact isMatch.kernel
  fitted := isMatch.fitted.of_reset_eq same

end ProcessingUnit

namespace Machine

/-! ## Units in the order of their numbers -/

/-- The units in order have numbers among those that were gone through. -/
theorem inOrder_numbers_sublist (units : List ProcessingUnit) :
    ((inOrder units).map (·.number)).Sublist ((List.range 256).map UInt8.ofNat) := by
  rw [inOrder]
  induction List.range 256 with
  | nil => exact .slnil
  | cons number later ih =>
    cases found : unitNumbered? units (UInt8.ofNat number) with
    | none =>
      simp only [List.filterMap_cons, found]
      exact ih.cons _
    | some unit =>
      simp only [List.filterMap_cons, found, List.map_cons, number_of_unitNumbered? found]
      exact ih.cons_cons _

theorem inOrder_distinct (units : List ProcessingUnit) : Distinct (inOrder units) := by
  refine (inOrder_numbers_sublist units).nodup (List.nodup_range.map_on ?_)
  intro first isByte second isByte' same
  have bytes := congrArg UInt8.toNat same
  rwa [UInt8.toNat_ofNat_of_lt' (List.mem_range.mp isByte),
    UInt8.toNat_ofNat_of_lt' (List.mem_range.mp isByte')] at bytes

theorem mem_inOrder {units : List ProcessingUnit} {unit : ProcessingUnit}
    (member : unit ∈ inOrder units) : unitNumbered? units unit.number = some unit := by
  obtain ⟨number, -, found⟩ := List.mem_filterMap.mp member
  rw [number_of_unitNumbered? found]
  exact found

/-- Putting units in order does not change which unit has a number. -/
theorem unitNumbered?_inOrder (units : List ProcessingUnit) (number : UInt8) :
    unitNumbered? (inOrder units) number = unitNumbered? units number := by
  cases found : unitNumbered? units number with
  | none =>
    refine List.find?_eq_none.mpr fun unit member same => ?_
    have isFound := mem_inOrder member
    rw [show unit.number = number by simpa using same, found] at isFound
    cases isFound
  | some unit =>
    have member : unit ∈ inOrder units := by
      refine List.mem_filterMap.mpr ⟨number.toNat, ?_, by simpa using found⟩
      exact List.mem_range.mpr number.toNat_lt
    obtain ⟨done, later, split⟩ := List.append_of_mem member
    have distinct := inOrder_distinct units
    rw [split] at distinct ⊢
    rw [unitNumbered?_split distinct, if_pos (number_of_unitNumbered? found).symm]

/-! ## Following a topology -/

/-- Whether a machine is one of a topology. -/
structure Follows (topology : Topology) (machine : Machine) : Prop where
  isOf : machine.topology = topology
  distinct : Distinct machine.units
  units : ∀ number, Option.Rel (ProcessingUnit.Matches topology.depth)
    (topology.unitNumbered? number) (unitNumbered? machine.units number)
  capacity : machine.shared.interconnect.capacity = topology.units.size * topology.depth.value

/-- A topology that has a control unit has units. -/
theorem size_pos_of_checkControl {topology : Topology} {nothing : Unit}
    (checked : checkControl topology = .ok nothing) : 0 < topology.units.size := by
  rw [NameMap.size]
  cases entries : topology.units.entries with
  | nil =>
    have values : topology.units.values = [] := by simp [NameMap.values, entries]
    simp [checkControl, values] at checked
  | cons entry later => simp

/-- A machine is built without a program, from the units that the topology describes, and it is at
its beginning. -/
theorem ofTopology_spec {topology : Topology} {config : Config} {built : Machine}
    (builds : ofTopology topology config = .ok built) :
    checkControl topology = .ok () ∧ built.reset = built ∧ ∃ units : List ProcessingUnit,
      List.Forall₂ (ProcessingUnit.Matches topology.depth) topology.units.values units ∧
        built.topology = topology ∧ built.units = inOrder units ∧ built.program = none ∧
        built.shared.interconnect = .empty (max units.length 1 * topology.depth.value) ∧
          built.shared.memory = Array.replicate config.memoryWords .zero := by
  cases checked : checkControl topology with
  | error fault =>
    rw [ofTopology, checked] at builds
    cases builds
  | ok =>
    cases made : topology.units.values.mapM (ProcessingUnit.ofDescription · topology.depth) with
    | error fault =>
      rw [ofTopology, checked, made] at builds
      cases builds
    | ok units =>
      rw [ofTopology, checked, made] at builds
      obtain rfl := Except.ok.inj builds
      have all := mapM_eq_ok_iff.mp made
      have fresh : ∀ unit ∈ units, unit.reset = unit :=
        forall_mem_of_forall₂ all fun _ _ => ProcessingUnit.reset_of_ofDescription
      have unchanged : (inOrder units).map ProcessingUnit.reset = inOrder units :=
        (List.map_congr_left fun unit member =>
          fresh unit (List.mem_of_find?_eq_some (mem_inOrder member))).trans (List.map_id _)
      refine ⟨rfl, ?_, units, all.imp fun description unit =>
        ProcessingUnit.matches_of_ofDescription, rfl, rfl, rfl, rfl, rfl⟩
      simp [reset, unchanged, Interconnect.reset, Interconnect.empty]

theorem follows_of_ofTopology {topology : Topology} {config : Config} {built : Machine}
    (builds : ofTopology topology config = .ok built) : built.Follows topology := by
  obtain ⟨checked, -, units, all, isOf, inUnits, -, interconnect, -⟩ := ofTopology_spec builds
  refine ⟨isOf, inUnits ▸ inOrder_distinct units, fun number => ?_, ?_⟩
  · have found := find?_rel (·.number == number) (fun unit => unit.number == number)
      (fun description unit isMatch => by rw [isMatch.number]) all
    rw [← unitNumbered?, ← unitNumbered?_inOrder, ← inUnits] at found
    exact found
  · have length : units.length = topology.units.size := by
      rw [← all.length_eq, NameMap.values, List.length_map, NameMap.size]
    have some := size_pos_of_checkControl checked
    have product : 0 < topology.units.size * topology.depth.value :=
      Nat.mul_pos some topology.depth.positive
    simp only [interconnect, Interconnect.empty, length, Nat.max_eq_left some,
      Nat.max_eq_left product]

/-- What follows a topology still does at work. -/
theorem Follows.of_resembles {topology : Topology} {machine other : Machine}
    (follows : machine.Follows topology)
    (units : other.units.map ProcessingUnit.reset = machine.units.map ProcessingUnit.reset)
    (isOf : other.topology = machine.topology)
    (capacity : other.shared.interconnect.capacity = machine.shared.interconnect.capacity) :
    other.Follows topology where
  isOf := isOf.trans follows.isOf
  distinct := by
    refine follows.distinct.of_numbers_eq ?_
    have numbers := congrArg (List.map ProcessingUnit.number) units
    simpa [List.map_map, Function.comp_def, ProcessingUnit.reset] using numbers
  units number := by
    have shape := congrArg (unitNumbered? · number) units
    simp only [unitNumbered?_reset] at shape
    have before := follows.units number
    cases found : unitNumbered? machine.units number with
    | none =>
      rw [found] at before shape
      rw [Option.map_eq_none_iff.mp shape]
      exact before
    | some unit =>
      rw [found] at before shape
      obtain ⟨changed, isFound, same⟩ := Option.map_eq_some_iff.mp shape
      rw [isFound]
      cases described : topology.unitNumbered? number with
      | none =>
        rw [described] at before
        cases before
      | some description =>
        rw [described] at before
        cases before with
        | some isMatch => exact .some (isMatch.of_reset_eq same)
  capacity := capacity.trans follows.capacity

/-- The unit with a number is made as the topology describes it. -/
theorem Follows.description {topology : Topology} {machine : Machine}
    (follows : machine.Follows topology) {number : UInt8} {unit : ProcessingUnit}
    (found : unitNumbered? machine.units number = some unit) :
    ∃ description, topology.unitNumbered? number = some description ∧
      ProcessingUnit.Matches topology.depth description unit := by
  have related := follows.units number
  rw [found] at related
  cases described : topology.unitNumbered? number with
  | none =>
    rw [described] at related
    cases related
  | some description =>
    rw [described] at related
    cases related with
    | some isMatch => exact ⟨description, rfl, isMatch⟩

theorem Follows.unit {topology : Topology} {machine : Machine}
    (follows : machine.Follows topology) {number : UInt8} {description : UnitDescription}
    (described : topology.unitNumbered? number = some description) :
    ∃ unit, unitNumbered? machine.units number = some unit ∧
      ProcessingUnit.Matches topology.depth description unit := by
  have related := follows.units number
  rw [described] at related
  cases found : unitNumbered? machine.units number with
  | none =>
    rw [found] at related
    cases related
  | some unit =>
    rw [found] at related
    cases related with
    | some isMatch => exact ⟨unit, rfl, isMatch⟩

/-- A kernel is one that the topology describes. -/
theorem Follows.description_of_kernel {topology : Topology} {machine : Machine}
    (follows : machine.Follows topology) {number : UInt8} {kernel : Kernel}
    (present : machine.network.kernel number = some kernel) :
    ∃ description, topology.unitNumbered? number = some description ∧
      description ∈ topology.units.values ∧ description.number = number ∧
        description.type = kernel.type := by
  obtain ⟨unit, found, rfl⟩ := Option.map_eq_some_iff.mp present
  obtain ⟨description, described, isMatch⟩ := follows.description found
  refine ⟨description, described, List.mem_of_find?_eq_some described, ?_, ?_⟩
  · simpa using List.find?_some described
  · rw [isMatch.fitted.kernel, isMatch.type]

/-- A machine with a control unit has room for packets. -/
theorem Follows.capacity_pos {topology : Topology} {machine : Machine}
    (follows : machine.Follows topology) (checked : checkControl topology = .ok ()) :
    0 < machine.network.shared.interconnect.capacity := by
  have positive := Nat.mul_pos (size_pos_of_checkControl checked) topology.depth.positive
  exact follows.capacity ▸ positive

/-! ## Valid programs -/

/-- The buffers that a valid program names exist in the topology. -/
theorem hasEndpoint_of_checkProgram {topology : Topology} {program : List Instruction}
    (valid : Image.checkProgram topology program = .ok ()) {instruction : Instruction}
    (inProgram : instruction ∈ program) :
    (∀ input, instruction.goesTo input = true → topology.hasEndpoint input .input = true) ∧
      ∀ output, instruction.comesFrom output = true →
        topology.hasEndpoint output .output = true := by
  have exists_of_end (address : Address) (side : Side) (atEnd : (address, side) ∈ instruction.ends)
      (real : address.isNull = false) : topology.hasEndpoint address side = true := by
    have found := Image.checkProgram_eq_ok_iff.mp valid (address, side)
      (List.mem_flatMap.mpr ⟨instruction, inProgram, atEnd⟩)
    simpa [Topology.lacks, real] using found
  constructor
  · intro input goes
    obtain ⟨real, isDestination⟩ := Instruction.goesTo_iff.mp goes
    refine exists_of_end input .input ?_ real
    cases instruction with
    | move source destination => simp [Instruction.ends, ← isDestination, Instruction.destination]
    | immediate value destination =>
      simp [Instruction.ends, ← isDestination, Instruction.destination]
    | jump target => exact absurd goes (Instruction.not_goesTo_jump target input)
  · intro output comes
    cases instruction with
    | move source destination =>
      obtain ⟨real, rfl⟩ := Instruction.comesFrom_move_iff.mp comes
      exact exists_of_end source .output List.mem_cons_self real
    | immediate value destination => simp [Instruction.comesFrom] at comes
    | jump target => simp [Instruction.comesFrom] at comes

/-- A valid program suits a machine of the topology. -/
theorem Follows.suits {topology : Topology} {machine : Machine} {program : List Instruction}
    (follows : machine.Follows topology) (loaded : machine.program = some program)
    (valid : Image.checkProgram topology program = .ok ()) : machine.Suits program := by
  have endpoint (address : Address) (side : Side)
      (isEndpoint : topology.hasEndpoint address side = true) :
      ∃ unit, unitNumbered? machine.units address.unit = some unit ∧
        address.buffer.toNat < (unit.type.buffers side).length := by
    rw [Topology.hasEndpoint] at isEndpoint
    cases described : topology.unitNumbered? address.unit with
    | none => simp [described] at isEndpoint
    | some description =>
      obtain ⟨unit, found, isMatch⟩ := follows.unit described
      refine ⟨unit, found, ?_⟩
      rw [isMatch.type]
      simpa [described] using isEndpoint
  refine ⟨loaded, follows.distinct, ?_, ?_, ?_⟩
  · intro unit member
    obtain ⟨description, -, isMatch⟩ :=
      follows.description (unitNumbered?_of_mem follows.distinct member)
    rw [follows.isOf]
    exact isMatch.fitted
  · intro unit member
    have isFound := unitNumbered?_of_mem follows.distinct member
    obtain ⟨description, -, isMatch⟩ := follows.description isFound
    constructor
    · intro instruction inProgram input own goes
      obtain ⟨other, found, inside⟩ := endpoint input .input
        ((hasEndpoint_of_checkProgram valid inProgram).1 input goes)
      rw [own, isFound, Option.some.injEq] at found
      rw [isMatch.fitted.inputs, found]
      exact inside
    · intro instruction inProgram output own comes
      obtain ⟨other, found, inside⟩ := endpoint output .output
        ((hasEndpoint_of_checkProgram valid inProgram).2 output comes)
      rw [own, isFound, Option.some.injEq] at found
      rw [isMatch.fitted.outputs, found]
      exact inside
  · rintro instruction inProgram ⟨number, side⟩ concerned
    obtain ⟨inputs, outputs⟩ := hasEndpoint_of_checkProgram valid inProgram
    cases side with
    | input =>
      obtain ⟨input, rfl, goes⟩ := Instruction.concerns_input_iff.mp concerned
      obtain ⟨unit, found, -⟩ := endpoint input .input (inputs input goes)
      exact Option.isSome_iff_exists.mpr ⟨unit, found⟩
    | output =>
      obtain ⟨output, rfl, comes⟩ := Instruction.concerns_output_iff.mp concerned
      obtain ⟨unit, found, -⟩ := endpoint output .output (outputs output comes)
      exact Option.isSome_iff_exists.mpr ⟨unit, found⟩

end Machine
end MoveMachine
