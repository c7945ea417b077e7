import MoveMachine.Proofs.Machine.Seat

/-!
# Steps of a manager in its unit

A step of a manager of a unit that has its seat in a network is explained by one
event of that network at most (`ProcessingUnit.stepManager_leads`). What a
manager holds is an instruction of the program that concerns it, so it never
drops one; the buffer named in the instruction exists, so carrying the effect
out never fails.
-/

set_option autoImplicit false

namespace MoveMachine

namespace ProcessingUnit

open Network

variable {program : List Instruction} {depth : Depth} {base : Network} {unit : ProcessingUnit}
  {shared : Shared}

/-! ## Carrying effects out -/

/-- An input that exists and has room takes another slot. -/
theorem alterInput_openSlot {index : UInt8} (slot : Slot) (fitted : unit.Fitted depth)
    (inside : index.toNat < unit.buffers.inputs.length)
    (room : (unit.buffers.input? index).all (!·.isFull) = true) :
    ∃ bank, unit.buffers.alterInput index (·.openSlot slot) = .ok bank ∧
      (unit.buffers.slotsAt index).length < depth.value ∧
      bank.slotsAt = Function.update unit.buffers.slotsAt index
        (unit.buffers.slotsAt index ++ [slot]) ∧
      bank.outputs = unit.buffers.outputs ∧ bank.clear = unit.buffers.clear := by
  have found : unit.buffers.input? index = some unit.buffers.inputs[index.toNat] :=
    List.getElem?_eq_getElem inside
  have notFull : unit.buffers.inputs[index.toNat].isFull = false := by simpa [found] using room
  have opened : unit.buffers.alterInput index (·.openSlot slot) = .ok (unit.buffers.setInput index
      { unit.buffers.inputs[index.toNat] with
        slots := unit.buffers.inputs[index.toNat].slots ++ [slot] }) := by
    simp only [Bank.alterInput, found, InputBuffer.openSlot_of_room slot notFull]
    rfl
  refine ⟨_, opened, ?_, ?_, rfl, Bank.clear_setInput found rfl⟩
  · rw [Bank.slotsAt_of_input? found, ← fitted.input? found]
    simpa [InputBuffer.isFull, InputBuffer.size] using of_decide_eq_false notFull
  · rw [Bank.slotsAt_setInput found, Bank.slotsAt_of_input? found]

/-- An output that exists and has room takes another destination. -/
theorem alterOutput_pushDestination {index : UInt8} (destination : Address)
    (fitted : unit.Fitted depth) (inside : index.toNat < unit.buffers.outputs.length)
    (room : (unit.buffers.output? index).all (!·.destinationsFull) = true) :
    ∃ bank, unit.buffers.alterOutput index (·.pushDestination destination) = .ok bank ∧
      (unit.buffers.destinationsAt index).length < depth.value ∧
      bank.valuesAt = unit.buffers.valuesAt ∧
      bank.destinationsAt = Function.update unit.buffers.destinationsAt index
        (unit.buffers.destinationsAt index ++ [destination]) ∧
      bank.inputs = unit.buffers.inputs ∧ bank.clear = unit.buffers.clear := by
  have found : unit.buffers.output? index = some unit.buffers.outputs[index.toNat] :=
    List.getElem?_eq_getElem inside
  have notFull : unit.buffers.outputs[index.toNat].destinationsFull = false := by
    simpa [found] using room
  have pushed : unit.buffers.alterOutput index (·.pushDestination destination) =
      .ok (unit.buffers.setOutput index { unit.buffers.outputs[index.toNat] with
        destinations := unit.buffers.outputs[index.toNat].destinations ++ [destination] }) := by
    simp only [Bank.alterOutput, found, OutputBuffer.pushDestination_of_room destination notFull]
    rfl
  refine ⟨_, pushed, ?_, ?_, ?_, rfl, Bank.clear_setOutput found rfl⟩
  · rw [Bank.destinationsAt_of_output? found, ← fitted.output? found]
    simpa using of_decide_eq_false notFull
  · rw [Bank.valuesAt_setOutput found, ← Bank.valuesAt_of_output? found, Function.update_eq_self]
  · rw [Bank.destinationsAt_setOutput found, Bank.destinationsAt_of_output? found]

/-- A unit in which a manager has acted on the buffers. -/
def managed (unit : ProcessingUnit) (shared : Shared) (side : Side) (state : Manager × Bank) :
    ProcessingUnit × Shared :=
  ({ unit.setManager side state.1 with buffers := state.2 }, shared)

theorem managed_self (side : Side) :
    managed unit shared side (unit.manager side, unit.buffers) = (unit, shared) := by
  cases side <;> rfl

theorem managed_buffers (side : Side) (manager : Manager) :
    managed unit shared side (manager, unit.buffers) = (unit.setManager side manager, shared) := by
  cases side <;> rfl

theorem resembles_managed {side : Side} {manager : Manager} {bank : Bank}
    (same : manager.reset = (unit.manager side).reset)
    (shape : bank.clear = unit.buffers.clear) :
    unit.Resembles (managed unit shared side (manager, bank)) := by
  cases side with
  | input => simp only [Resembles, managed, reset, setManager, same, shape, ProcessingUnit.manager]
  | output => simp only [Resembles, managed, reset, setManager, same, shape, ProcessingUnit.manager]

/-- The input manager opens a slot for the instruction that it holds. -/
theorem openSlot_step {instruction : Instruction} {input : Address} {bank : Bank}
    (holds : unit.inputManager.pending = some instruction) (own : input.unit = unit.number)
    (goes : instruction.goesTo input = true)
    (room : (unit.buffers.slotsAt input.buffer).length < depth.value)
    (slots : bank.slotsAt = Function.update unit.buffers.slotsAt input.buffer
      (unit.buffers.slotsAt input.buffer ++ [instruction.slot]))
    (outputs : bank.outputs = unit.buffers.outputs) :
    Step program depth.value (base.seat unit shared) (.apply (unit.number, .input) instruction)
      (seated base
        (managed unit shared .input ({ unit.inputManager with pending := none }, bank))) := by
  obtain ⟨number, buffer⟩ := input
  obtain rfl : number = unit.number := own
  have becomes : seated base
      (managed unit shared .input ({ unit.inputManager with pending := none }, bank)) =
        { base.seat unit shared with
          pending := Function.update (base.seat unit shared).pending (unit.number, .input) none
          slots := Function.update (base.seat unit shared).slots ⟨unit.number, buffer⟩
            ((base.seat unit shared).slots ⟨unit.number, buffer⟩ ++ [instruction.slot]) } := by
    rw [seated, managed,
      seat_slots (unit.setManager .input { unit.inputManager with pending := none })
        slots outputs,
      seat_setManager, seat_slotsAt]
    exact Network.ext rfl rfl rfl rfl (seat_inbox_same .input) rfl rfl rfl rfl rfl
  rw [becomes]
  exact .openSlot ((seat_pending .input).trans holds) rfl goes (by simpa using room)

/-- The output manager directs a value as the instruction that it holds says. -/
theorem direct_step {instruction : Instruction} {output : Address} {bank : Bank}
    (holds : unit.outputManager.pending = some instruction) (own : output.unit = unit.number)
    (comes : instruction.comesFrom output = true)
    (room : (unit.buffers.destinationsAt output.buffer).length < depth.value)
    (values : bank.valuesAt = unit.buffers.valuesAt)
    (destinations : bank.destinationsAt =
      Function.update unit.buffers.destinationsAt output.buffer
        (unit.buffers.destinationsAt output.buffer ++ [instruction.destination]))
    (inputs : bank.inputs = unit.buffers.inputs) :
    Step program depth.value (base.seat unit shared) (.apply (unit.number, .output) instruction)
      (seated base
        (managed unit shared .output ({ unit.outputManager with pending := none }, bank))) := by
  obtain ⟨number, buffer⟩ := output
  obtain rfl : number = unit.number := own
  have becomes : seated base
      (managed unit shared .output ({ unit.outputManager with pending := none }, bank)) =
        { base.seat unit shared with
          pending := Function.update (base.seat unit shared).pending (unit.number, .output) none
          destinations := Function.update (base.seat unit shared).destinations ⟨unit.number, buffer⟩
            ((base.seat unit shared).destinations ⟨unit.number, buffer⟩ ++
              [instruction.destination]) } := by
    rw [← Function.update_eq_self buffer unit.buffers.valuesAt] at values
    rw [seated, managed,
      seat_outputs (unit.setManager .output { unit.outputManager with pending := none }) shared
        values destinations inputs,
      seat_setManager, seat_destinationsAt]
    exact Network.ext rfl (seat_values_same unit shared buffer) rfl rfl (seat_inbox_same .output)
      rfl rfl rfl rfl rfl
  rw [becomes]
  exact .direct ((seat_pending .output).trans holds) rfl comes (by simpa using room)

/-- What a manager of a unit holds is an instruction of the program that concerns it. -/
theorem pending_mem {side : Side} {instruction : Instruction}
    (reachable : (base.seat unit shared).Reachable program depth.value)
    (holds : (unit.manager side).pending = some instruction) :
    instruction ∈ program ∧ instruction.concerns (unit.number, side) = true := by
  obtain ⟨start, history, blank, evolves⟩ := reachable
  exact evolves.held_mem blank (by simp [held, holds])

/-- The effect of an instruction of the program is carried out if there is room for it. -/
theorem apply_step {side : Side} {instruction : Instruction} {effect : Effect}
    (fitted : unit.Fitted depth) (serves : unit.Serves program) (member : instruction ∈ program)
    (holds : (unit.manager side).pending = some instruction)
    (means : Effect.of? side unit.number instruction = some effect)
    (room : unit.buffers.canApply effect = true) :
    ∃ bank, unit.buffers.apply effect = .ok bank ∧ bank.clear = unit.buffers.clear ∧
      Step program depth.value (base.seat unit shared) (.apply (unit.number, side) instruction)
        (seated base
          (managed unit shared side ({ unit.manager side with pending := none }, bank))) := by
  cases side with
  | input =>
    obtain ⟨input, own, goes, acts⟩ := Effect.of?_input means
    rw [(acts _).2] at room
    obtain ⟨bank, opened, hasRoom, slots, outputs, shape⟩ :=
      alterInput_openSlot instruction.slot fitted
        (serves.input instruction member input own goes) room
    exact ⟨bank, (acts _).1.trans opened, shape,
      openSlot_step holds own goes hasRoom slots outputs⟩
  | output =>
    obtain ⟨output, own, comes, acts⟩ := Effect.of?_output means
    rw [(acts _).2] at room
    obtain ⟨bank, directed, hasRoom, values, destinations, inputs, shape⟩ :=
      alterOutput_pushDestination instruction.destination fitted
        (serves.output instruction member output own comes) room
    exact ⟨bank, (acts _).1.trans directed, shape,
      direct_step holds own comes hasRoom values destinations inputs⟩

/-- A step of a manager is one event of its own at most. It never drops an instruction, and it never
fails to apply one. -/
theorem stepManager_leads (side : Side) (fitted : unit.Fitted depth)
    (serves : unit.Serves program)
    (reachable : (base.seat unit shared).Reachable program depth.value) :
    (∃ progressed, (stepManager side (unit, shared)).report = .ok progressed) ∧
      unit.Resembles (stepManager side (unit, shared)).state ∧
      Leads program depth.value (base.seat unit shared)
        (History.Of (.manager (unit.number, side)))
        (seated base (stepManager side (unit, shared)).state) := by
  have sideIs := fitted.side side
  have number := fitted.number side
  have outcome := Manager.step_outcome (unit.manager side) unit.buffers
  have steps : stepManager side (unit, shared) =
      ((unit.manager side).step unit.buffers).map (managed unit shared side) := rfl
  rw [steps]
  generalize (unit.manager side).step unit.buffers = stepped at outcome ⊢
  cases outcome with
  | rests | waits =>
    refine ⟨⟨false, rfl⟩, resembles_managed rfl rfl, ?_⟩
    rw [Stepped.map, managed_self]
    exact .here _ _
  | @fetches instruction later free waiting =>
    refine ⟨⟨true, rfl⟩, resembles_managed rfl rfl, ?_⟩
    rw [Stepped.map, managed_buffers, seated, seat_setManager]
    exact Leads.event (.fetch (by simpa using free) (by simpa using waiting)) rfl rfl
  | @drops instruction holds foreign =>
    obtain ⟨-, concerned⟩ := pending_mem reachable holds
    rw [sideIs, number] at foreign
    simp [Instruction.concerns, foreign] at concerned
  | @applies instruction effect after holds means room applied =>
    obtain ⟨member, -⟩ := pending_mem reachable holds
    rw [sideIs, number] at means
    obtain ⟨bank, carriedOut, shape, happens⟩ :=
      apply_step fitted serves member holds means room
    obtain rfl := Except.ok.inj (carriedOut.symm.trans applied)
    exact ⟨⟨true, rfl⟩, resembles_managed rfl shape, .event happens rfl rfl⟩
  | @fails instruction effect fault holds means room applied =>
    obtain ⟨member, -⟩ := pending_mem reachable holds
    rw [sideIs, number] at means
    obtain ⟨bank, carriedOut, -⟩ :=
      @apply_step program depth base unit shared side _ _ fitted serves member holds means room
    cases carriedOut.symm.trans applied

end ProcessingUnit
end MoveMachine
