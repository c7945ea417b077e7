import MoveMachine.Proofs.Machine.Budget
import MoveMachine.Proofs.Machine.Building
import MoveMachine.Proofs.Machine.Session

/-!
# What a round spends

The units of a machine and the packets in flight have a budget together: a packet
that is handed over is paid for by its output, and its arrival by itself. Finding
the program at its end is one more step. So the work of the units and the arrivals
only spend, and a round spends but for what the instructions bring in that it
issues (`Machine.Fresh.round_spends`). An instruction concerns two managers at
most; what it can cause on the input side and on the output side is eight steps
together, and being issued is the ninth.
-/

set_option autoImplicit false

namespace MoveMachine

open Stepped

/-! ## Handing packets over -/

/-- A packet that is taken out leaves one destination less, and room for one more value. -/
theorem OutputBuffer.budget_pop? {output popped : OutputBuffer} {sender : Address}
    {packet : Packet} (taken : output.pop? sender = some (packet, popped)) :
    popped.budget + 2 ≤ output.budget := by
  obtain ⟨depth, destinations, values⟩ := output
  cases destinations with
  | nil => simp [pop?] at taken
  | cons destination destinations =>
    cases values with
    | nil => simp [pop?] at taken
    | cons value values =>
      simp only [pop?, Option.some.injEq, Prod.mk.injEq] at taken
      obtain ⟨-, rfl⟩ := taken
      simp only [budget, Side.load, List.length_cons]
      omega

theorem Interconnect.length_send_le {interconnect sending : Interconnect} {packet : Packet}
    (sends : interconnect.send packet = .ok sending) :
    sending.inFlight.length ≤ interconnect.inFlight.length + 1 := by
  rcases Interconnect.send_cases sends with ⟨-, rfl⟩ | ⟨-, -, rfl⟩
  · exact Nat.le_succ _
  · simp

theorem handOver_spends (sender : Address) (bound : Nat) (output : OutputBuffer)
    (interconnect : Interconnect) :
    (handOver sender bound output interconnect).Spends
      (fun state => state.1.budget + state.2.inFlight.length)
      (output.budget + interconnect.inFlight.length) := by
  induction bound generalizing output interconnect with
  | zero => exact .of_idle (Nat.le_refl _)
  | succ bound ih =>
    rw [handOver]
    split
    · split
      · exact .of_idle (Nat.le_refl _)
      · rename_i packet popped taken
        refine Spends.andThen (.of_attempt fun after result => ?_) (ih _ _)
        cases sends : interconnect.send packet with
        | error cause => simp [sends, Except.map] at result
        | ok sending =>
          simp only [sends, Except.map, Except.ok.injEq] at result
          subst result
          have left := OutputBuffer.budget_pop? taken
          have flying := Interconnect.length_send_le sends
          simp only
          omega
    · exact .of_idle (Nat.le_refl _)

theorem handOverAll_spends (unit : UInt8) (interconnect : Interconnect) (index : Nat)
    (outputs : List OutputBuffer) :
    (handOverAll unit interconnect index outputs).Spends
      (total OutputBuffer.budget (·.inFlight.length))
      (total OutputBuffer.budget (·.inFlight.length) (outputs, interconnect)) := by
  induction outputs generalizing interconnect index with
  | nil => exact .of_idle (Nat.le_refl _)
  | cons output later ih =>
    have first := handOver_spends ⟨unit, UInt8.ofNat index⟩
      (min output.values.length output.destinations.length) output interconnect
    rw [handOverAll]
    generalize handOver ⟨unit, UInt8.ofNat index⟩
      (min output.values.length output.destinations.length) output interconnect = stepped at first ⊢
    obtain ⟨⟨kept, sending⟩, report⟩ := stepped
    cases report with
    | error cause => exact .of_fault cause
    | ok progressed => exact .cons (first progressed rfl) (ih sending (index + 1))

/-! ## Units -/

namespace ProcessingUnit

/-- What a unit can still cause. -/
def budget (unit : ProcessingUnit) : Nat :=
  unit.inputManager.budget + unit.outputManager.budget + unit.buffers.budget

/-- What a unit and the packets in flight can still cause. -/
def budgetWith (state : ProcessingUnit × Shared) : Nat :=
  state.1.budget + state.2.interconnect.inFlight.length

variable {unit : ProcessingUnit} {shared : Shared}

theorem stepManager_spends (side : Side) :
    (stepManager side (unit, shared)).Spends budgetWith (budgetWith (unit, shared)) := by
  have spends := (unit.manager side).step_spends unit.buffers
  cases side with
  | input =>
    refine Spends.map ((spends.beside
      (unit.outputManager.budget + shared.interconnect.inFlight.length)).mono (fun state => ?_) ?_)
    all_goals
      simp only [Function.comp_apply, budgetWith, budget, manager, setManager]
      omega
  | output =>
    refine Spends.map ((spends.beside
      (unit.inputManager.budget + shared.interconnect.inFlight.length)).mono (fun state => ?_) ?_)
    all_goals
      simp only [Function.comp_apply, budgetWith, budget, manager, setManager]
      omega

theorem stepKernel_spends :
    (stepKernel (unit, shared)).Spends budgetWith (budgetWith (unit, shared)) := by
  have spends := Kernel.step_spends unit.number
    ⟨unit.kernel, unit.buffers, shared.memory, shared.results⟩
  refine Spends.map ((spends.beside (unit.inputManager.budget + unit.outputManager.budget +
    shared.interconnect.inFlight.length)).mono (fun state => ?_) ?_)
  all_goals
    simp only [Function.comp_apply, budgetWith, budget]
    omega

theorem stepOutputs_spends :
    (stepOutputs (unit, shared)).Spends budgetWith (budgetWith (unit, shared)) := by
  have spends := handOverAll_spends unit.number shared.interconnect 0 unit.buffers.outputs
  refine Spends.map ((spends.beside (unit.inputManager.budget + unit.outputManager.budget +
    (unit.buffers.inputs.map (·.slots.length)).sum)).mono (fun state => ?_) ?_)
  all_goals
    simp only [Function.comp_apply, budgetWith, budget, Bank.budget, total]
    omega

theorem step_spends (unit : ProcessingUnit) (shared : Shared) :
    (unit.step shared).Spends budgetWith (budgetWith (unit, shared)) := by
  rw [step]
  exact (((stepManager_spends .input).andThen (stepManager_spends .output)).andThen
    stepKernel_spends).andThen stepOutputs_spends

end ProcessingUnit

namespace Machine

variable {machine loaded : Machine} {units : List ProcessingUnit}

/-- What some units can still cause. -/
def budgetOf (units : List ProcessingUnit) : Nat := (units.map ProcessingUnit.budget).sum

/-- What a machine can still cause without issuing an instruction. -/
def budget (machine : Machine) : Nat :=
  budgetOf machine.units + machine.shared.interconnect.inFlight.length +
    (!machine.halted).toNat

theorem stepUnits_spends (units : List ProcessingUnit) (shared : Shared) :
    (stepUnits units shared).Spends
      (total ProcessingUnit.budget (·.interconnect.inFlight.length))
      (total ProcessingUnit.budget (·.interconnect.inFlight.length) (units, shared)) := by
  induction units generalizing shared with
  | nil => exact .of_idle (Nat.le_refl _)
  | cons unit later ih =>
    have first := unit.step_spends shared
    rw [stepUnits]
    generalize unit.step shared = stepped at first ⊢
    obtain ⟨⟨kept, sharing⟩, report⟩ := stepped
    cases report with
    | error cause => exact .of_fault cause
    | ok progressed => exact .cons (first progressed rfl) (ih sharing)

theorem work_spends (machine : Machine) : machine.work.Spends budget machine.budget := by
  have spends := stepUnits_spends machine.units machine.shared
  refine Spends.map ((spends.beside (!machine.halted).toNat).mono (fun state => ?_) ?_)
  · rfl
  · exact Nat.le_refl _

/-! ## Changing one unit -/

/-- Whether units have different numbers, and each its managers on their sides. -/
structure Arranged (units : List ProcessingUnit) : Prop where
  distinct : Distinct units
  side : ∀ unit ∈ units, ∀ side, (unit.manager side).side = side

section Change

variable {number : UInt8} {unit : ProcessingUnit}

theorem budgetOf_alterUnit (arranged : Arranged units)
    (found : unitNumbered? units number = some unit)
    (alter : ProcessingUnit → ProcessingUnit) :
    budgetOf (alterUnit number alter units) + unit.budget =
      budgetOf units + (alter unit).budget := by
  obtain ⟨done, later, rfl⟩ := split_of_unitNumbered? found
  rw [← number_of_unitNumbered? found, alterUnit_split arranged.distinct]
  simp only [budgetOf, List.map_append, List.map_cons, List.sum_append, List.sum_cons]
  omega

theorem Arranged.alterUnit (arranged : Arranged units)
    (found : unitNumbered? units number = some unit) {alter : ProcessingUnit → ProcessingUnit}
    (sameNumber : (alter unit).number = unit.number)
    (side : ∀ side, ((alter unit).manager side).side = side) :
    Arranged (alterUnit number alter units) := by
  obtain ⟨done, later, rfl⟩ := split_of_unitNumbered? found
  rw [← number_of_unitNumbered? found, alterUnit_split arranged.distinct]
  constructor
  · exact arranged.distinct.of_numbers_eq (by simp [sameNumber])
  · intro other member
    rcases List.mem_append.mp member with earlier | here
    · exact arranged.side other (List.mem_append_left _ earlier)
    · rcases List.mem_cons.mp here with rfl | further
      · exact side
      · exact arranged.side other (List.mem_append_right _ (List.mem_cons_of_mem _ further))

end Change

/-! ## Arrivals -/

/-- A value that arrives neither opens nor retires a slot. -/
theorem setInput_spec (arranged : Arranged units) {input : Address} {buffer : InputBuffer}
    {slots : List Slot} (found : Endpoints.input? units input = some buffer)
    (length : slots.length = buffer.slots.length) :
    Arranged (Endpoints.setInput units input { buffer with slots }) ∧
      budgetOf (Endpoints.setInput units input { buffer with slots }) = budgetOf units := by
  obtain ⟨unit, isUnit, isBuffer⟩ := Option.bind_eq_some_iff.mp found
  have member := List.mem_of_find?_eq_some isUnit
  constructor
  · refine arranged.alterUnit isUnit rfl fun side => ?_
    refine Eq.trans ?_ (arranged.side unit member side)
    cases side <;> rfl
  · have changed := budgetOf_alterUnit arranged isUnit fun unit =>
      { unit with buffers := unit.buffers.setInput input.buffer { buffer with slots } }
    have same := Bank.budget_setInput isBuffer { buffer with slots }
    simp only [ProcessingUnit.budget] at changed
    simp only at same
    simp only [Endpoints.setInput]
    omega

/-- A pass over the packets in flight leaves the budget of the units alone. -/
theorem budgetOf_deliverAll (packets : List Packet) (blocked : List (Address × Address))
    (arranged : Arranged units) (noFault : (deliverAll blocked units packets).fault = none) :
    budgetOf (deliverAll blocked units packets).endpoints = budgetOf units := by
  induction packets generalizing blocked units with
  | nil => rfl
  | cons packet later ih =>
    by_cases isBlocked : blocked.contains packet.route = true
    · rw [deliverAll_of_blocked isBlocked] at noFault ⊢
      exact ih blocked arranged noFault
    · cases found : Endpoints.input? units packet.destination with
      | none =>
        rw [deliverAll_of_missing isBlocked found] at noFault
        cases noFault
      | some buffer =>
        cases fills : InputBuffer.fillOldest packet.sender packet.value buffer.slots with
        | none =>
          rw [deliverAll_of_refused isBlocked found fills] at noFault ⊢
          exact ih _ arranged noFault
        | some filled =>
          rw [deliverAll_of_filled isBlocked found fills] at noFault ⊢
          obtain ⟨older, younger, slots, -, rfl⟩ := InputBuffer.fillOldest_eq_some fills
          have length : (older ++ .arrived packet.sender packet.value :: younger).length =
              buffer.slots.length := by simp [slots]
          obtain ⟨arrangedAfter, sameAfter⟩ := setInput_spec arranged found length
          exact (ih blocked arrangedAfter noFault).trans sameAfter

theorem deliver_spends (arranged : Arranged machine.units) :
    machine.deliver.Spends budget machine.budget := by
  intro progressed reports
  cases noFault : (deliverAll [] machine.units machine.shared.interconnect.inFlight).fault with
  | some cause => simp [deliver, Interconnect.deliver, noFault, Except.map] at reports
  | none =>
    have same := budgetOf_deliverAll _ _ arranged noFault
    have count := length_deliverAll machine.shared.interconnect.inFlight [] machine.units
    rw [deliver_eq noFault] at reports ⊢
    obtain rfl := Except.ok.inj reports
    simp only [budget, delivering, List.nil_append, same]
    have once : (decide (0 <
        (deliverAll [] machine.units machine.shared.interconnect.inFlight).count)).toNat ≤
        (deliverAll [] machine.units machine.shared.interconnect.inFlight).count := by
      cases some : decide (0 <
        (deliverAll [] machine.units machine.shared.interconnect.inFlight).count) with
      | false => exact Nat.zero_le _
      | true => exact of_decide_eq_true some
    omega

/-! ## Issue -/

/-- A manager that receives an instruction can carry it out. -/
theorem issueTo_spends {instruction : Instruction} {address : Address} {side : Side}
    {after : List ProcessingUnit} (arranged : Arranged units)
    (issues : issueTo instruction address side units = .ok after) :
    Arranged after ∧ budgetOf after ≤ budgetOf units + (side.load + 2) := by
  cases found : unitNumbered? units address.unit with
  | none =>
    simp only [issueTo, found, Except.ok.injEq] at issues
    subst issues
    exact ⟨arranged, Nat.le_add_right _ _⟩
  | some unit =>
    have sides := arranged.side unit (List.mem_of_find?_eq_some found)
    cases room : (unit.manager side).canAccept with
    | false =>
      simp [issueTo, found, ProcessingUnit.receive, Manager.receive, room, Except.map] at issues
    | true =>
      simp only [issueTo, found, ProcessingUnit.receive, Manager.receive, room, if_true,
        Except.map, Except.ok.injEq] at issues
      subst issues
      constructor
      · refine arranged.alterUnit found ?_ fun other => ?_
        · cases side <;> rfl
        · refine Eq.trans ?_ (sides other)
          cases side <;> cases other <;> rfl
      · have changed := budgetOf_alterUnit arranged found fun _ => unit.setManager side
          { unit.manager side with inbox := (unit.manager side).inbox ++ [instruction] }
        have load := congrArg Side.load (sides side)
        cases side with
        | input =>
          simp only [ProcessingUnit.budget, ProcessingUnit.setManager, ProcessingUnit.manager,
            Manager.budget, List.length_append, List.length_singleton, Nat.mul_succ]
            at changed load ⊢
          omega
        | output =>
          simp only [ProcessingUnit.budget, ProcessingUnit.setManager, ProcessingUnit.manager,
            Manager.budget, List.length_append, List.length_singleton, Nat.mul_succ]
            at changed load ⊢
          omega

theorem issueToAll_spends {instruction : Instruction} (targets : List (Address × Side))
    {after : List ProcessingUnit} (arranged : Arranged units)
    (issues : issueToAll instruction targets units = .ok after) :
    budgetOf after ≤ budgetOf units + (targets.map fun target => target.2.load + 2).sum := by
  induction targets generalizing units with
  | nil =>
    obtain rfl := Except.ok.inj issues
    exact Nat.le_refl _
  | cons target later ih =>
    cases first : issueTo instruction target.1 target.2 units with
    | error cause => simp [issueToAll, first, bind, Except.bind] at issues
    | ok between =>
      obtain ⟨arrangedAfter, within⟩ := issueTo_spends arranged first
      simp only [issueToAll, first, bind, Except.bind] at issues
      have rest := ih arrangedAfter issues
      simp only [List.map_cons, List.sum_cons]
      omega

theorem targets_load_le (instruction : Instruction) :
    ((targets instruction).map fun target => target.2.load + 2).sum ≤ 8 := by
  cases instruction with
  | move source destination =>
    cases fromNull : source.isNull <;> cases toNull : destination.isNull <;>
      simp [targets, fromNull, toNull, Side.load]
  | immediate value destination =>
    cases toNull : destination.isNull <;> simp [targets, toNull, Side.load]
  | jump target => simp [targets]

theorem issue_spends (instruction : Instruction) (arranged : Arranged machine.units) :
    ∃ count, (machine.issue instruction).state.issued = machine.issued + count ∧
      (machine.issue instruction).Spends budget (machine.budget + 9 * count) := by
  rw [issue]
  split
  · exact ⟨0, rfl, .of_fault _⟩
  · exact ⟨0, rfl, .of_idle (Nat.le_refl _)⟩
  · cases issues : issueToAll instruction (targets instruction) machine.units with
    | error cause => exact ⟨0, rfl, .of_fault cause⟩
    | ok after =>
      have within := issueToAll_spends _ arranged issues
      have load := targets_load_le instruction
      refine ⟨1, rfl, .of_progress ?_⟩
      simp only [budget]
      omega

/-- Going on in the program is the only thing that adds to the budget. -/
theorem dispatch_spends (arranged : Arranged machine.units) :
    ∃ count, machine.dispatch.state.issued = machine.issued + count ∧
      machine.dispatch.Spends budget (machine.budget + 9 * count) := by
  rw [dispatch]
  split
  · exact ⟨0, rfl, .of_idle (Nat.le_refl _)⟩
  · rename_i running
    split
    · exact ⟨0, rfl, .of_idle (Nat.le_refl _)⟩
    · split
      · refine ⟨0, rfl, .of_progress ?_⟩
        simp only [budget, running, Bool.not_true, Bool.not_false, Bool.toNat_true,
          Bool.toNat_false]
        omega
      · refine ⟨1, rfl, .of_progress ?_⟩
        simp only [budget]
        omega
      · exact issue_spends _ arranged

/-! ## Rounds -/

variable {topology : Topology} {program : List Instruction}

theorem Suits.arranged (suits : machine.Suits program) : Arranged machine.units :=
  ⟨suits.distinct, fun unit member => (suits.fitted unit member).side⟩

/-- What neither the work of the units nor arrivals change is as going on in the program left it. -/
theorem round_keeps {Seen : Type} (see : Machine → Seen)
    (worked : ∀ machine : Machine, see machine.work.state = see machine)
    (delivered : ∀ machine : Machine, see machine.deliver.state = see machine) :
    see machine.round.state = see machine.dispatch.state :=
  (andThen_keeps see delivered _).trans (andThen_keeps see worked _)

/-- A round spends, but for what the instructions bring in that it issues. -/
theorem Fresh.round_spends (fresh : Fresh topology program loaded) (runs : Runs loaded machine) :
    ∃ count, machine.round.state.issued = machine.issued + count ∧
      machine.round.Spends budget (machine.budget + 9 * count) := by
  have reachable := fresh.reachable runs
  rw [← (fresh.follows_of_runs runs).isOf] at reachable
  have suits := fresh.suits_of_runs runs
  obtain ⟨same, -⟩ := dispatch_work_explained suits reachable
  obtain ⟨count, issued, spends⟩ := dispatch_spends suits.arranged
  refine ⟨count, ?_, ?_⟩
  · exact (round_keeps Machine.issued (fun _ => rfl) fun _ => rfl).trans issued
  · exact (spends.andThen (work_spends _)).andThen
      (deliver_spends (suits.of_resembles same).arranged)

end Machine
end MoveMachine
