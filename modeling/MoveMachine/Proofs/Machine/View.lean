import MoveMachine.Proofs.Machine.UnitStep

/-!
# Machines as networks

The network of a machine (`Machine.network`) reads every buffer, manager and
kernel off the unit with its number. In a machine whose units have different
numbers, each unit has its seat in that network (`Machine.network_seat`), and
changing the unit with a number changes the network at that seat only.

A program suits a machine (`Machine.Suits`) if all units are fitted and every
buffer that the program names exists. This depends on the shape of the machine
only (`Machine.Resembles`), which stays the same at work.
-/

set_option autoImplicit false

namespace MoveMachine

/-! ## Units by number -/

section Numbers

variable {done later units : List ProcessingUnit} {unit other : ProcessingUnit}

/-- Whether no two units have the same number. -/
def Distinct (units : List ProcessingUnit) : Prop := (units.map (·.number)).Nodup

theorem Distinct.of_numbers_eq {units others : List ProcessingUnit} (distinct : Distinct units)
    (same : others.map (·.number) = units.map (·.number)) : Distinct others := by
  rw [Distinct, same]
  exact distinct

theorem unitNumbered?_split (distinct : Distinct (done ++ unit :: later)) (number : UInt8) :
    unitNumbered? (done ++ unit :: later) number =
      if number = unit.number then some unit else unitNumbered? (done ++ later) number := by
  by_cases here : number = unit.number
  · subst here
    have noEarlier : done.find? (fun other => other.number == unit.number) = none := by
      refine List.find?_eq_none.mpr fun other member same => ?_
      simp only [Distinct, List.map_append, List.map_cons] at distinct
      have fresh := (List.nodup_append.mp distinct).2.2 other.number
        (List.mem_map_of_mem member) unit.number List.mem_cons_self
      exact fresh (by simpa using same)
    simp [unitNumbered?, List.find?_append, noEarlier]
  · have differs : (unit.number == number) = false := by simpa using Ne.symm here
    simp [unitNumbered?, List.find?_append, here, differs]

theorem number_of_unitNumbered? {number : UInt8} (found : unitNumbered? units number = some unit) :
    unit.number = number := by
  simpa using List.find?_some found

/-- The place of the unit with a number in the list of all units. -/
theorem split_of_unitNumbered? {number : UInt8} (found : unitNumbered? units number = some unit) :
    ∃ done later, units = done ++ unit :: later := by
  obtain ⟨-, done, later, split, -⟩ := List.find?_eq_some_iff_append.mp found
  exact ⟨done, later, split⟩

theorem unitNumbered?_of_mem (distinct : Distinct units) (member : unit ∈ units) :
    unitNumbered? units unit.number = some unit := by
  obtain ⟨done, later, rfl⟩ := List.append_of_mem member
  rw [unitNumbered?_split distinct, if_pos rfl]

theorem unitNumbered?_reset (units : List ProcessingUnit) (number : UInt8) :
    unitNumbered? (units.map ProcessingUnit.reset) number =
      (unitNumbered? units number).map ProcessingUnit.reset := by
  rw [unitNumbered?, List.find?_map]
  rfl

/-- Changing the unit with a number leaves all others alone. -/
theorem alterUnit_split (distinct : Distinct (done ++ unit :: later))
    (alter : ProcessingUnit → ProcessingUnit) :
    alterUnit unit.number alter (done ++ unit :: later) = done ++ alter unit :: later := by
  simp only [Distinct, List.map_append, List.map_cons] at distinct
  obtain ⟨-, distinctLater, apart⟩ := List.nodup_append.mp distinct
  have unchanged (others : List ProcessingUnit) (absent : unit.number ∉ others.map (·.number)) :
      alterUnit unit.number alter others = others := by
    rw [alterUnit]
    refine (List.map_congr_left fun other member => ?_).trans (List.map_id _)
    refine if_neg fun same => absent ?_
    rw [← same]
    exact List.mem_map_of_mem member
  have earlier := unchanged done fun member => apart _ member _ List.mem_cons_self rfl
  have further := unchanged later (List.nodup_cons.mp distinctLater).1
  simp only [alterUnit] at earlier further
  simp [alterUnit, earlier, further]

/-- There is a unit with each number of a unit, and with no other. -/
theorem unitNumbered?_isSome_iff {number : UInt8} :
    (unitNumbered? units number).isSome = true ↔ number ∈ units.map (·.number) := by
  simp [unitNumbered?, List.find?_isSome]

end Numbers

namespace Machine

/-- A machine as a network. -/
def network (machine : Machine) : Network where
  slots input := (unitNumbered? machine.units input.unit).elim [] (·.buffers.slotsAt input.buffer)
  values output :=
    (unitNumbered? machine.units output.unit).elim [] (·.buffers.valuesAt output.buffer)
  destinations output :=
    (unitNumbered? machine.units output.unit).elim [] (·.buffers.destinationsAt output.buffer)
  pending post :=
    (unitNumbered? machine.units post.1).bind fun unit => (unit.manager post.2).pending
  inbox post := (unitNumbered? machine.units post.1).elim [] fun unit => (unit.manager post.2).inbox
  kernel number := (unitNumbered? machine.units number).map (·.kernel)
  shared := machine.shared
  pc := machine.pc
  halted := machine.halted
  issued := machine.issued

/-- Putting a unit in the place of another of its number. -/
theorem network_seat (machine : Machine) {done later : List ProcessingUnit}
    (unit : ProcessingUnit) {other : ProcessingUnit} (shared : Shared)
    (distinct : Distinct (done ++ other :: later))
    (same : unit.number = other.number) (units : machine.units = done ++ other :: later) :
    { machine with units := done ++ unit :: later, shared }.network =
      machine.network.seat unit shared := by
  have distinct' : Distinct (done ++ unit :: later) :=
    distinct.of_numbers_eq (by simp [same])
  have before := unitNumbered?_split distinct
  have after := unitNumbered?_split distinct'
  refine Network.ext ?_ ?_ ?_ ?_ ?_ ?_ rfl rfl rfl rfl
  all_goals
    funext place
    simp only [network, Network.seat, units, before, after, ← same, Function.update_apply]
    split <;> rfl

/-! ## Shape -/

/-- Whether another machine is the same up to what changes at work. -/
structure Resembles (machine other : Machine) : Prop where
  topology : other.topology = machine.topology
  config : other.config = machine.config
  program : other.program = machine.program
  units : other.units.map ProcessingUnit.reset = machine.units.map ProcessingUnit.reset

theorem Resembles.refl (machine : Machine) : machine.Resembles machine := ⟨rfl, rfl, rfl, rfl⟩

theorem Resembles.trans {machine middle other : Machine} (first : machine.Resembles middle)
    (second : middle.Resembles other) : machine.Resembles other where
  topology := second.topology.trans first.topology
  config := second.config.trans first.config
  program := second.program.trans first.program
  units := second.units.trans first.units

theorem Resembles.numbers {machine other : Machine} (same : machine.Resembles other) :
    other.units.map (·.number) = machine.units.map (·.number) := by
  have numbers := congrArg (List.map ProcessingUnit.number) same.units
  simpa [List.map_map, Function.comp_def, ProcessingUnit.reset] using numbers

theorem Resembles.exists_unit {machine other : Machine} (same : machine.Resembles other)
    {unit : ProcessingUnit} (member : unit ∈ other.units) :
    ∃ original ∈ machine.units, unit.reset = original.reset := by
  have inShape : unit.reset ∈ machine.units.map ProcessingUnit.reset := by
    rw [← same.units]
    exact List.mem_map_of_mem member
  obtain ⟨original, inUnits, equal⟩ := List.mem_map.mp inShape
  exact ⟨original, inUnits, equal.symm⟩

/-- Whether a machine is ready for a program: its units have different numbers and are fitted, and
every unit and every buffer that the program names exists. -/
structure Suits (program : List Instruction) (machine : Machine) : Prop where
  loaded : machine.program = some program
  distinct : Distinct machine.units
  fitted : ∀ unit ∈ machine.units, unit.Fitted machine.topology.depth
  serves : ∀ unit ∈ machine.units, unit.Serves program
  present : ∀ instruction ∈ program, ∀ post, instruction.concerns post = true →
    (unitNumbered? machine.units post.1).isSome = true

theorem Suits.of_resembles {program : List Instruction} {machine other : Machine}
    (suits : machine.Suits program) (same : machine.Resembles other) : other.Suits program where
  loaded := same.program.trans suits.loaded
  distinct := suits.distinct.of_numbers_eq same.numbers
  fitted unit member := by
    obtain ⟨original, inUnits, equal⟩ := same.exists_unit member
    rw [same.topology]
    exact (suits.fitted original inUnits).of_reset_eq equal
  serves unit member := by
    obtain ⟨original, inUnits, equal⟩ := same.exists_unit member
    exact (suits.serves original inUnits).of_reset_eq equal
  present instruction member post concerned := by
    have isSome := suits.present instruction member post concerned
    rw [unitNumbered?_isSome_iff] at isSome ⊢
    rwa [same.numbers]

/-- A machine in which some units stand behind others, and share something. -/
def worked (machine : Machine) (done : List ProcessingUnit)
    (state : List ProcessingUnit × Shared) : Machine :=
  { machine with units := done ++ state.1, shared := state.2 }

end Machine
end MoveMachine
