import MoveMachine.Kernel
import Mathlib.Logic.Function.Basic

/-!
# The contents of a unit's buffers

The buffers of a unit are read by index: the slots of an input, the values and
the destinations of an output (`Bank.slotsAt`, `Bank.valuesAt`,
`Bank.destinationsAt`). An index without a buffer reads as empty.

Every operation on a bank is described by what it does to these readings, and
by the fact that it leaves the shape of the bank alone: emptying the buffers
before or after the operation gives the same bank (`Bank.clear`). Taking values
out of inputs is described for any number of inputs at once (`Bank.Retires`).
-/

set_option autoImplicit false

namespace MoveMachine

/-! ## Single buffers -/

namespace InputBuffer

/-- A buffer takes another slot exactly if it is not full. -/
theorem openSlot_of_room {buffer : InputBuffer} (slot : Slot) (room : buffer.isFull = false) :
    buffer.openSlot slot = .ok { buffer with slots := buffer.slots ++ [slot] } := by
  simp [openSlot, room]

/-- The head of a buffer is a value exactly if the oldest slot holds one. -/
theorem peek?_eq_some_iff {buffer : InputBuffer} {value : Word} :
    buffer.peek? = some value ↔
      ∃ slot, buffer.slots.head? = some slot ∧ slot.value? = some value := by
  simp [peek?, Option.bind_eq_some_iff]

/-- A value that arrives splits the slots at the oldest one that awaits it. -/
theorem fillOldest_eq_some {sender : Address} {value : Word} {slots filled : List Slot}
    (fills : fillOldest sender value slots = some filled) :
    ∃ older younger, slots = older ++ .awaiting sender :: younger ∧
      Slot.awaiting sender ∉ older ∧ filled = older ++ .arrived sender value :: younger := by
  induction slots generalizing filled with
  | nil => simp [fillOldest] at fills
  | cons slot rest ih =>
    rw [fillOldest] at fills
    split at fills
    · rename_i awaits
      obtain rfl := Option.some.inj fills
      exact ⟨[], rest, by simp [awaits], by simp, rfl⟩
    · rename_i differs
      obtain ⟨later, fillsLater, rfl⟩ := Option.map_eq_some_iff.mp fills
      obtain ⟨older, younger, rfl, notOlder, rfl⟩ := ih fillsLater
      refine ⟨slot :: older, younger, rfl, ?_, rfl⟩
      simpa [Ne.symm differs] using notOlder

end InputBuffer

namespace OutputBuffer

theorem pushValue_of_room {buffer : OutputBuffer} (value : Word)
    (room : buffer.valuesFull = false) :
    buffer.pushValue value = .ok { buffer with values := buffer.values ++ [value] } := by
  simp [pushValue, room]

theorem pushDestination_of_room {buffer : OutputBuffer} (destination : Address)
    (room : buffer.destinationsFull = false) :
    buffer.pushDestination destination =
      .ok { buffer with destinations := buffer.destinations ++ [destination] } := by
  simp [pushDestination, room]

end OutputBuffer

namespace Bank

/-! ## Readings -/

/-- The slots of the input with an index. -/
def slotsAt (bank : Bank) (index : UInt8) : List Slot := (bank.input? index).elim [] (·.slots)

/-- The values of the output with an index. -/
def valuesAt (bank : Bank) (index : UInt8) : List Word := (bank.output? index).elim [] (·.values)

/-- The destinations of the output with an index. -/
def destinationsAt (bank : Bank) (index : UInt8) : List Address :=
  (bank.output? index).elim [] (·.destinations)

theorem slotsAt_of_input? {bank : Bank} {index : UInt8} {buffer : InputBuffer}
    (found : bank.input? index = some buffer) : bank.slotsAt index = buffer.slots := by
  simp [slotsAt, found]

theorem valuesAt_of_output? {bank : Bank} {index : UInt8} {buffer : OutputBuffer}
    (found : bank.output? index = some buffer) : bank.valuesAt index = buffer.values := by
  simp [valuesAt, found]

theorem destinationsAt_of_output? {bank : Bank} {index : UInt8} {buffer : OutputBuffer}
    (found : bank.output? index = some buffer) :
    bank.destinationsAt index = buffer.destinations := by
  simp [destinationsAt, found]

/-- Readings of the inputs depend on the input buffers only. -/
theorem slotsAt_congr {bank other : Bank} (inputs : other.inputs = bank.inputs) :
    other.slotsAt = bank.slotsAt := by
  funext index
  simp [slotsAt, input?, inputs]

theorem valuesAt_congr {bank other : Bank} (outputs : other.outputs = bank.outputs) :
    other.valuesAt = bank.valuesAt := by
  funext index
  simp [valuesAt, output?, outputs]

theorem destinationsAt_congr {bank other : Bank} (outputs : other.outputs = bank.outputs) :
    other.destinationsAt = bank.destinationsAt := by
  funext index
  simp [destinationsAt, output?, outputs]

/-! ## Replacing one buffer -/

theorem input?_setInput {bank : Bank} {index : UInt8} {old : InputBuffer}
    (found : bank.input? index = some old) (buffer : InputBuffer) (other : UInt8) :
    (bank.setInput index buffer).input? other =
      if other = index then some buffer else bank.input? other := by
  obtain ⟨inside, -⟩ := List.getElem?_eq_some_iff.mp found
  by_cases same : other = index
  · subst same
    simp [input?, setInput, inside]
  · have apart : index.toNat ≠ other.toNat := fun equal => same (UInt8.toNat_inj.mp equal.symm)
    simp [input?, setInput, List.getElem?_set_ne apart, same]

theorem output?_setOutput {bank : Bank} {index : UInt8} {old : OutputBuffer}
    (found : bank.output? index = some old) (buffer : OutputBuffer) (other : UInt8) :
    (bank.setOutput index buffer).output? other =
      if other = index then some buffer else bank.output? other := by
  obtain ⟨inside, -⟩ := List.getElem?_eq_some_iff.mp found
  by_cases same : other = index
  · subst same
    simp [output?, setOutput, inside]
  · have apart : index.toNat ≠ other.toNat := fun equal => same (UInt8.toNat_inj.mp equal.symm)
    simp [output?, setOutput, List.getElem?_set_ne apart, same]

theorem slotsAt_setInput {bank : Bank} {index : UInt8} {old : InputBuffer}
    (found : bank.input? index = some old) (buffer : InputBuffer) :
    (bank.setInput index buffer).slotsAt = Function.update bank.slotsAt index buffer.slots := by
  funext other
  rw [slotsAt, input?_setInput found, Function.update_apply]
  split <;> simp [slotsAt]

theorem valuesAt_setOutput {bank : Bank} {index : UInt8} {old : OutputBuffer}
    (found : bank.output? index = some old) (buffer : OutputBuffer) :
    (bank.setOutput index buffer).valuesAt =
      Function.update bank.valuesAt index buffer.values := by
  funext other
  rw [valuesAt, output?_setOutput found, Function.update_apply]
  split <;> simp [valuesAt]

theorem destinationsAt_setOutput {bank : Bank} {index : UInt8} {old : OutputBuffer}
    (found : bank.output? index = some old) (buffer : OutputBuffer) :
    (bank.setOutput index buffer).destinationsAt =
      Function.update bank.destinationsAt index buffer.destinations := by
  funext other
  rw [destinationsAt, output?_setOutput found, Function.update_apply]
  split <;> simp [destinationsAt]

/-- An element may be replaced by another that a function does not tell from it. -/
theorem map_set_of_eq {α β : Type} {list : List α} {position : Nat} {old new : α} (f : α → β)
    (found : list[position]? = some old) (same : f new = f old) :
    (list.set position new).map f = list.map f := by
  obtain ⟨inside, rfl⟩ := List.getElem?_eq_some_iff.mp found
  apply List.ext_getElem?
  intro other
  by_cases here : position = other
  · subst here
    simp [inside, same]
  · simp [List.getElem?_set_ne here]

/-- A replacement of the same depth keeps the shape of a bank. -/
theorem clear_setInput {bank : Bank} {index : UInt8} {old buffer : InputBuffer}
    (found : bank.input? index = some old) (depth : buffer.depth = old.depth) :
    (bank.setInput index buffer).clear = bank.clear := by
  have same : buffer.clear = old.clear := by simp [InputBuffer.clear, depth]
  simp only [clear, setInput, map_set_of_eq InputBuffer.clear found same]

theorem clear_setOutput {bank : Bank} {index : UInt8} {old buffer : OutputBuffer}
    (found : bank.output? index = some old) (depth : buffer.depth = old.depth) :
    (bank.setOutput index buffer).clear = bank.clear := by
  have same : buffer.clear = old.clear := by simp [OutputBuffer.clear, depth]
  simp only [clear, setOutput, map_set_of_eq OutputBuffer.clear found same]

/-! ## Empty buffers -/

@[simp] theorem slotsAt_clear (bank : Bank) (index : UInt8) : bank.clear.slotsAt index = [] := by
  cases found : bank.inputs[index.toNat]? <;>
    simp [slotsAt, input?, clear, found, InputBuffer.clear]

@[simp] theorem valuesAt_clear (bank : Bank) (index : UInt8) : bank.clear.valuesAt index = [] := by
  cases found : bank.outputs[index.toNat]? <;>
    simp [valuesAt, output?, clear, found, OutputBuffer.clear]

@[simp] theorem destinationsAt_clear (bank : Bank) (index : UInt8) :
    bank.clear.destinationsAt index = [] := by
  cases found : bank.outputs[index.toNat]? <;>
    simp [destinationsAt, output?, clear, found, OutputBuffer.clear]

@[simp] theorem slotsAt_empty (unit : UInt8) (type : UnitType) (depth : Depth) (index : UInt8) :
    (empty unit type depth).slotsAt index = [] := by
  rw [slotsAt, input?, empty, List.getElem?_map]
  cases (type.buffers .input)[index.toNat]? <;> rfl

@[simp] theorem valuesAt_empty (unit : UInt8) (type : UnitType) (depth : Depth) (index : UInt8) :
    (empty unit type depth).valuesAt index = [] := by
  rw [valuesAt, output?, empty, List.getElem?_map]
  cases (type.buffers .output)[index.toNat]? <;> rfl

/-! ## Taking values out of inputs -/

/-- The oldest slots of some inputs are taken out of a bank, and nothing else changes. -/
structure Retires (bank : Bank) (taken : List (UInt8 × Slot)) (after : Bank) : Prop where
  /-- Every taken slot was the oldest one of its input. -/
  heads : ∀ entry ∈ taken, (bank.slotsAt entry.1).head? = some entry.2
  /-- The inputs concerned lose their oldest slot. -/
  slotsAt : ∀ index, after.slotsAt index =
    if index ∈ taken.map (·.1) then (bank.slotsAt index).tail else bank.slotsAt index
  outputs : after.outputs = bank.outputs
  clear : after.clear = bank.clear

theorem Retires.nothing (bank : Bank) : bank.Retires [] bank where
  heads := by simp
  slotsAt := by simp
  outputs := rfl
  clear := rfl

/-- An input is ready exactly if its oldest slot holds a value. -/
theorem ready_iff {bank : Bank} {index : UInt8} :
    bank.ready index = true ↔
      ∃ slot value, (bank.slotsAt index).head? = some slot ∧ slot.value? = some value := by
  cases found : bank.input? index with
  | none => simp [ready, slotsAt, found]
  | some buffer =>
    simp only [ready, found, Option.any_some, InputBuffer.hasValue, slotsAt, Option.elim_some,
      Option.isSome_iff_exists, InputBuffer.peek?_eq_some_iff]
    exact exists_comm

theorem take?_eq_none_iff {bank : Bank} {index : UInt8} :
    bank.take? index = none ↔ bank.ready index = false := by
  cases found : bank.input? index with
  | none => simp [take?, ready, found]
  | some buffer =>
    cases peeked : buffer.peek? <;>
      simp [take?, ready, found, InputBuffer.pop?, InputBuffer.hasValue, peeked]

/-- Taking a value retires the oldest slot of the input. -/
theorem retires_of_take? {bank after : Bank} {index : UInt8} {value : Word}
    (taken : bank.take? index = some (value, after)) :
    ∃ slot, slot.value? = some value ∧ bank.Retires [(index, slot)] after := by
  cases found : bank.input? index with
  | none => simp [take?, found] at taken
  | some buffer =>
    cases peeked : buffer.peek? with
    | none => simp [take?, found, InputBuffer.pop?, peeked] at taken
    | some word =>
      obtain ⟨slot, head, holds⟩ := InputBuffer.peek?_eq_some_iff.mp peeked
      simp only [take?, found, InputBuffer.pop?, peeked, Option.map_some, Option.bind_eq_bind,
        Option.bind_some, Option.pure_def, Option.some.injEq, Prod.mk.injEq] at taken
      obtain ⟨rfl, rfl⟩ := taken
      refine ⟨slot, holds, ?_, ?_, rfl, clear_setInput found rfl⟩
      · simp [slotsAt_of_input? found, head]
      · intro other
        rw [slotsAt_setInput found, Function.update_apply]
        by_cases same : other = index
        · simp [same, slotsAt_of_input? found]
        · simp [same]

/-- Two inputs taken from one after the other are taken from at once. -/
theorem Retires.trans {bank middle after : Bank} {first second : UInt8 × Slot}
    (apart : first.1 ≠ second.1) (before : bank.Retires [first] middle)
    (later : middle.Retires [second] after) : bank.Retires [first, second] after := by
  have untouched : middle.slotsAt second.1 = bank.slotsAt second.1 := by
    simp [before.slotsAt, apart.symm]
  refine ⟨?_, ?_, later.outputs.trans before.outputs, later.clear.trans before.clear⟩
  · intro entry member
    rcases List.mem_cons.mp member with rfl | member
    · exact before.heads _ (List.mem_singleton_self _)
    · obtain rfl := List.mem_singleton.mp member
      rw [← untouched]
      exact later.heads _ (List.mem_singleton_self _)
  · intro index
    rw [later.slotsAt, before.slotsAt]
    by_cases isSecond : index = second.1
    · subst isSecond
      simp [apart.symm]
    · simp [isSecond]

theorem retires_of_takeOperands? {bank after : Bank} {first second : Word}
    (taken : bank.takeOperands? = some (first, second, after)) :
    ∃ slot other, slot.value? = some first ∧ other.value? = some second ∧
      bank.Retires [(firstOperand, slot), (secondOperand, other)] after := by
  obtain ⟨⟨word, middle⟩, takesFirst, rest⟩ := Option.bind_eq_some_iff.mp taken
  obtain ⟨⟨word', last⟩, takesSecond, result⟩ := Option.bind_eq_some_iff.mp rest
  simp only [Option.pure_def, Option.some.injEq, Prod.mk.injEq] at result
  obtain ⟨rfl, rfl, rfl⟩ := result
  obtain ⟨slot, holds, before⟩ := retires_of_take? takesFirst
  obtain ⟨other, holds', later⟩ := retires_of_take? takesSecond
  have apart : firstOperand ≠ secondOperand := by decide
  exact ⟨slot, other, holds, holds', before.trans apart later⟩

/-- Both operands are there exactly if both inputs are ready. -/
theorem takeOperands?_eq_none_iff {bank : Bank} :
    bank.takeOperands? = none ↔
      ¬(bank.ready firstOperand = true ∧ bank.ready secondOperand = true) := by
  cases takesFirst : bank.take? firstOperand with
  | none =>
    simp [takeOperands?, takesFirst, take?_eq_none_iff.mp takesFirst]
  | some taken =>
    obtain ⟨word, middle⟩ := taken
    obtain ⟨slot, -, before⟩ := retires_of_take? takesFirst
    have isReady : bank.ready firstOperand = true := by
      by_contra notReady
      simp [take?_eq_none_iff.mpr (by simpa using notReady)] at takesFirst
    have untouched : middle.ready secondOperand = bank.ready secondOperand := by
      have same : middle.slotsAt secondOperand = bank.slotsAt secondOperand := by
        rw [before.slotsAt, if_neg (by simp [firstOperand, secondOperand])]
      rw [Bool.eq_iff_iff, ready_iff, ready_iff, same]
    rw [← untouched]
    cases takesSecond : middle.take? secondOperand with
    | none => simp [takeOperands?, takesFirst, takesSecond, take?_eq_none_iff.mp takesSecond]
    | some _ =>
      have isReady' : middle.ready secondOperand = true := by
        by_contra notReady
        simp [take?_eq_none_iff.mpr (by simpa using notReady)] at takesSecond
      simp [takeOperands?, takesFirst, takesSecond, isReady, isReady']

/-! ## Giving values to the output -/

/-- A value, if there is one, is given to the output of a bank, and nothing else changes. -/
structure Emits (bank : Bank) (emitted : Option Word) (after : Bank) : Prop where
  valuesAt : after.valuesAt =
    Function.update bank.valuesAt result (bank.valuesAt result ++ emitted.toList)
  destinationsAt : after.destinationsAt = bank.destinationsAt
  inputs : after.inputs = bank.inputs
  clear : after.clear = bank.clear

theorem Emits.nothing (bank : Bank) : bank.Emits none bank where
  valuesAt := by simp
  destinationsAt := rfl
  inputs := rfl
  clear := rfl

/-- An output with room takes a value. -/
theorem emit_of_hasRoom {bank : Bank} (value : Word) (room : bank.hasRoom = true) :
    ∃ after, bank.emit value = .ok after ∧ bank.Emits (some value) after := by
  obtain ⟨buffer, found, notFull⟩ := (Option.any_eq_true _ _).mp room
  have pushed := OutputBuffer.pushValue_of_room value (by simpa using notFull)
  have emitted : bank.emit value = .ok (bank.setOutput result
      { buffer with values := buffer.values ++ [value] }) := by
    simp only [emit, alterOutput, found, pushed]
    rfl
  refine ⟨_, emitted, ?_, ?_, rfl, ?_⟩
  · rw [valuesAt_setOutput found]
    simp [valuesAt_of_output? found]
  · rw [destinationsAt_setOutput found, ← destinationsAt_of_output? found,
      Function.update_eq_self]
  · exact clear_setOutput found rfl

end Bank
end MoveMachine
