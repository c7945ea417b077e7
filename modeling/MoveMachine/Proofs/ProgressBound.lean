import MoveMachine.Proofs.Machine.RoundBudget
import MoveMachine.Proofs.FlowControl

/-!
# Only issuing keeps a run alive

A round that makes progress spends the budget of the machine, and what issuing an
instruction brings in is bounded. How many rounds can make progress therefore
follows from the number of instructions issued and from the room that the outputs
had at the beginning (`Machine.progress_bounded`), however often a micro-op is to
be repeated and however many words a unit is to emit. A program without jumps
issues each of its instructions once at most, so a run with enough rounds to spare
comes to its end.
-/

set_option autoImplicit false

namespace MoveMachine
namespace Machine

variable {topology : Topology} {program : List Instruction} {machine loaded : Machine}

/-! ## Rounds without a fault -/

/-- What a machine comes to in rounds without a fault after a program was loaded, with the number of
those rounds that made progress. -/
inductive Rounds (loaded : Machine) : Nat → Machine → Prop where
  | loaded : Rounds loaded 0 loaded
  | round {busy : Nat} {machine : Machine} {progressed : Bool}
      (earlier : Rounds loaded busy machine) (reports : machine.round.report = .ok progressed) :
      Rounds loaded (busy + progressed.toNat) machine.round.state
  | write {busy : Nat} {machine after : Machine} {offset : Nat} {values : List Word}
      (earlier : Rounds loaded busy machine)
      (writes : machine.writeMemory offset values = .ok after) : Rounds loaded busy after

theorem Rounds.runs {busy : Nat} (rounds : Rounds loaded busy machine) : Runs loaded machine := by
  induction rounds with
  | loaded => exact .loaded
  | round _ _ ih => exact ih.round
  | write _ writes ih => exact ih.write writes

/-- Rounds that made progress are paid for from the first budget and by what was issued. -/
theorem Fresh.spent (fresh : Fresh topology program loaded) {busy : Nat}
    (rounds : Rounds loaded busy machine) :
    busy + machine.budget ≤ loaded.budget + 9 * machine.issued := by
  induction rounds with
  | loaded => omega
  | round earlier reports ih =>
    obtain ⟨count, issued, spends⟩ := fresh.round_spends earlier.runs
    have within := spends _ reports
    omega
  | write _ writes ih =>
    obtain ⟨memory, -, rfl⟩ := writeMemory_spec writes
    exact ih

/-! ## The first budget -/

/-- Costs that are bounded one by one are bounded together. -/
theorem sum_map_le {Item : Type} {items : List Item} {cost : Item → Nat} {bound : Nat}
    (each : ∀ item ∈ items, cost item ≤ bound) :
    (items.map cost).sum ≤ items.length * bound := by
  have all := List.sum_le_card_nsmul (items.map cost) bound (List.forall_mem_map.mpr each)
  simpa using all

/-- A unit at its beginning can fill its output. -/
theorem budget_reset_le {depth : Depth} {unit : ProcessingUnit} (fitted : unit.Fitted depth) :
    unit.reset.budget ≤ depth.value := by
  have room : (unit.buffers.outputs.map fun output => output.depth.value).sum ≤
      unit.buffers.outputs.length * depth.value := by
    apply sum_map_le
    intro output member
    rw [fitted.outputDepth output member]
  have one : unit.buffers.outputs.length ≤ 1 := by
    rw [fitted.outputs]
    cases unit.type <;> decide
  have atMost := Nat.mul_le_mul_right depth.value one
  have slots : (unit.buffers.clear.inputs.map fun input => input.slots.length).sum = 0 := by
    simp [Bank.clear, Function.comp_def, InputBuffer.clear]
  have outputs : (unit.buffers.clear.outputs.map OutputBuffer.budget).sum =
      (unit.buffers.outputs.map fun output => output.depth.value).sum := by
    simp [Bank.clear, Function.comp_def, OutputBuffer.clear, OutputBuffer.budget]
  simp only [ProcessingUnit.budget, ProcessingUnit.reset, Manager.budget, Manager.reset,
    Bank.budget, slots, outputs, Option.toList_none, List.length_nil]
  omega

/-- There are no more units than the topology describes. -/
theorem Follows.length_units_le (follows : machine.Follows topology) :
    machine.units.length ≤ topology.units.size := by
  have described : machine.units.map (·.number) ⊆ topology.units.values.map (·.number) := by
    intro number member
    obtain ⟨unit, isUnit, rfl⟩ := List.mem_map.mp member
    obtain ⟨description, found, isMatch⟩ :=
      follows.description (unitNumbered?_of_mem follows.distinct isUnit)
    rw [isMatch.number]
    exact List.mem_map_of_mem (List.mem_of_find?_eq_some found)
  have fewer := (follows.distinct.subperm described).length_le
  simpa [NameMap.values, NameMap.size] using fewer

theorem Fresh.budget_le (fresh : Fresh topology program loaded) :
    loaded.budget ≤ topology.units.size * topology.depth.value + 1 := by
  have all : budgetOf loaded.units ≤ loaded.units.length * topology.depth.value := by
    apply sum_map_le
    intro unit isUnit
    have units := fresh.units
    rw [← List.map_id loaded.units, List.map_map, List.map_inj_left] at units
    have atBeginning : unit.reset = unit := units unit isUnit
    have fitted := fresh.suits.fitted unit isUnit
    rw [fresh.follows.isOf] at fitted
    rw [← atBeginning]
    exact budget_reset_le fitted
  have count := Nat.mul_le_mul_right topology.depth.value fresh.follows.length_units_le
  have nothing : loaded.shared.interconnect.inFlight = [] := fresh.blank.inFlight
  have atMostOne := Bool.toNat_le (!loaded.halted)
  simp only [budget, nothing, List.length_nil]
  omega

/-! ## Programs without jumps -/

/-- Without jumps the program goes on from each instruction to the next. -/
theorem dispatch_in_order (noJump : ∀ target, Instruction.jump target ∉ program)
    (holds : machine.program = some program)
    (before : machine.pc = machine.issued ∧ machine.issued ≤ program.length) :
    machine.dispatch.state.pc = machine.dispatch.state.issued ∧
      machine.dispatch.state.issued ≤ program.length := by
  rw [dispatch]
  split
  · exact before
  · simp only [holds]
    cases next : program[machine.pc]? with
    | none => exact before
    | some instruction =>
      have inside := (List.getElem?_eq_some_iff.mp next).1
      have issues : (machine.issue instruction).state.pc =
            (machine.issue instruction).state.issued ∧
          (machine.issue instruction).state.issued ≤ program.length := by
        rw [issue]
        split
        · exact before
        · exact before
        · cases issueToAll instruction (targets instruction) machine.units with
          | error cause => exact before
          | ok units =>
            refine ⟨congrArg Nat.succ before.1, ?_⟩
            show machine.issued + 1 ≤ program.length
            omega
      cases instruction with
      | jump target => exact absurd (List.mem_of_getElem? next) (noJump target)
      | move | immediate => exact issues

theorem Fresh.in_order (fresh : Fresh topology program loaded)
    (noJump : ∀ target, Instruction.jump target ∉ program) (runs : Runs loaded machine) :
    machine.pc = machine.issued ∧ machine.issued ≤ program.length := by
  induction runs with
  | loaded =>
    have pc : loaded.pc = 0 := fresh.blank.pc
    have issued : loaded.issued = 0 := fresh.blank.issued
    omega
  | round earlier ih =>
    have after := dispatch_in_order noJump (fresh.suits_of_runs earlier).loaded ih
    rw [round_keeps Machine.pc (fun _ => rfl) fun _ => rfl,
      round_keeps Machine.issued (fun _ => rfl) fun _ => rfl]
    exact after
  | write _ writes ih =>
    obtain ⟨memory, -, rfl⟩ := writeMemory_spec writes
    exact ih

/-- With enough rounds to spare, a run of a program without jumps comes to its end. -/
theorem Fresh.outcome_of_runFrom (fresh : Fresh topology program loaded)
    (noJump : ∀ target, Instruction.jump target ∉ program) {done left : Nat}
    (rounds : Rounds loaded done machine)
    (enough : 9 * program.length + topology.units.size * topology.depth.value + 2 ≤ done + left)
    {report : RunReport} (ends : (machine.runFrom done left).2 = .ok report) :
    report.outcome = .completed ∨ report.outcome = .stalled := by
  induction left generalizing machine done with
  | zero =>
    have spent := fresh.spent rounds
    have first := fresh.budget_le
    have issued := (fresh.in_order noJump rounds.runs).2
    omega
  | succ left ih =>
    rw [runFrom] at ends
    cases reported : machine.round.report with
    | error cause =>
      rw [reported] at ends
      cases ends
    | ok progressed =>
      rw [reported] at ends
      cases progressed with
      | true =>
        have oneMore : true.toNat = 1 := rfl
        exact ih (rounds.round reported) (by omega) ends
      | false =>
        obtain rfl := Except.ok.inj ends
        simp only [Machine.report]
        split
        · exact .inl rfl
        · exact .inr rfl

/-- Only issuing keeps a run alive: how many rounds without a fault can make progress after a
program was loaded is bounded by the instructions issued and the room of all buffers. So a program
without jumps does not meet the step limit if this leaves enough rounds. -/
theorem progress_bounded {config : Config} {built before : Machine} {image : Image}
    (builds : ofTopology topology config = .ok built) (session : Session built before)
    (loads : before.load image = .ok loaded) (decodes : image.program = .ok program) :
    (∀ busy machine, Rounds loaded busy machine →
      busy ≤ 9 * machine.issued + topology.units.size * topology.depth.value + 1) ∧
    ((∀ target, Instruction.jump target ∉ program) → ∀ ready, Written loaded ready →
      9 * program.length + topology.units.size * topology.depth.value + 2 ≤
        ready.config.maxSteps →
      (∃ report, ready.run.2 = .ok report ∧
          (report.outcome = .completed ∨ report.outcome = .stalled)) ∨
        ∃ fault, ready.run.2 = .error fault ∧ fault.isKernelFault = true) := by
  have fresh := session.fresh builds loads decodes
  constructor
  · intro busy machine rounds
    have spent := fresh.spent rounds
    have first := fresh.budget_le
    omega
  · intro noJump ready written enough
    have freshReady := fresh.written written
    have starts : ready.run = ready.runFrom 0 ready.config.maxSteps := by
      rw [run, isReady, freshReady.holds]
      rfl
    rw [starts]
    cases ends : (ready.runFrom 0 ready.config.maxSteps).2 with
    | error fault => exact .inr ⟨fault, rfl, freshReady.isKernelFault_of_runFrom .loaded ends⟩
    | ok report =>
      exact .inl ⟨report, rfl, freshReady.outcome_of_runFrom noJump .loaded (by omega) ends⟩

theorem relay_progress_bounded :
    ∃ built loaded : Machine, ofTopology (.relay ⟨1, by decide, by decide⟩) .default = .ok built ∧
      built.load (.ofProgram Instruction.relayed) = .ok loaded ∧
      Rounds loaded 1 loaded.round.state ∧ 1 ≤ 9 * loaded.round.state.issued + 2 * 1 + 1 ∧
      ((∃ report, loaded.run.2 = .ok report ∧
          (report.outcome = .completed ∨ report.outcome = .stalled)) ∨
        ∃ fault, loaded.run.2 = .error fault ∧ fault.isKernelFault = true) := by
  obtain ⟨built, loaded, builds, loads, busy, enough⟩ : ∃ built loaded : Machine,
      ofTopology (.relay ⟨1, by decide, by decide⟩) .default = .ok built ∧
      built.load (.ofProgram Instruction.relayed) = .ok loaded ∧
      loaded.round.report = .ok true ∧ 9 * 2 + 2 * 1 + 2 ≤ loaded.config.maxSteps :=
    ⟨_, _, rfl, rfl, rfl, by decide⟩
  have rounds : Rounds loaded 1 loaded.round.state := .round .loaded busy
  have noJump : ∀ target, Instruction.jump target ∉ Instruction.relayed := by
    intro target
    simp [Instruction.relayed]
  obtain ⟨bound, ends⟩ := progress_bounded builds .built loads Image.program_relayed
  exact ⟨built, loaded, builds, loads, rounds, bound 1 _ rounds, ends noJump loaded .loaded enough⟩

end Machine
end MoveMachine
