import MoveMachine.Fault
import MoveMachine.Word
import MoveMachine.Topology

/-!
# Input buffers

An input buffer is a window of slots in the order in which the program opened
them. A slot awaits a value from a sender, holds one that has arrived, holds a
constant, or is a marker. Values may arrive in any order: a value fills the
oldest slot that awaits its sender (`InputBuffer.fill`). They leave in the order
of the slots, and only from the oldest one (`InputBuffer.pop?`).

An operation that fails leaves the buffer as it was.
-/

set_option autoImplicit false

namespace MoveMachine

/-- A place in an input buffer. -/
inductive Slot where
  /-- No value yet; one from the sender belongs here. -/
  | awaiting (sender : Address)
  /-- The value that came from the sender. -/
  | arrived (sender : Address) (value : Word)
  /-- A value that the program wrote. -/
  | constant (value : Word)
  /-- A marker: no value belongs here. -/
  | marker
deriving DecidableEq

namespace Slot

/-- The value in a slot. -/
def value? : Slot → Option Word
  | .awaiting _ => none
  | .arrived _ value => some value
  | .constant value => some value
  | .marker => none

/-- Whether a slot is a marker. -/
def isMarker : Slot → Bool
  | .marker => true
  | _ => false

/-- The slot that a registration opens. -/
def ofRegistration : Registration → Slot
  | .expect sender => .awaiting sender
  | .marker => .marker

end Slot

/-- A window of slots. -/
structure InputBuffer where
  /-- How many slots fit into the window. -/
  depth : Depth
  /-- The slots, oldest first. -/
  slots : List Slot
deriving DecidableEq

namespace InputBuffer

/-- A buffer without slots. -/
def empty (depth : Depth) : InputBuffer := ⟨depth, []⟩

/-- The number of slots. -/
def size (buffer : InputBuffer) : Nat := buffer.slots.length

/-- Whether no further slot fits. -/
def isFull (buffer : InputBuffer) : Bool := buffer.depth.value ≤ buffer.size

/-- Opens a slot behind all others. -/
def openSlot (buffer : InputBuffer) (slot : Slot) : Except Fault InputBuffer :=
  if buffer.isFull then .error (.overflow .sources buffer.depth.value)
  else .ok { buffer with slots := buffer.slots ++ [slot] }

/-- Opens a slot for a value from a source; the null source stands for a marker. -/
def register (buffer : InputBuffer) (source : Address) : Except Fault InputBuffer :=
  buffer.openSlot (.ofRegistration source.registration)

/-- Opens a slot that already holds its value. -/
def write (buffer : InputBuffer) (value : Word) : Except Fault InputBuffer :=
  buffer.openSlot (.constant value)

/-- Whether a slot awaits a value from a sender. -/
def expects (buffer : InputBuffer) (sender : Address) : Bool :=
  buffer.slots.contains (.awaiting sender)

/-- Puts a value into the oldest slot that awaits its sender. -/
def fillOldest (sender : Address) (value : Word) : List Slot → Option (List Slot)
  | [] => none
  | slot :: younger =>
    if slot = .awaiting sender then some (.arrived sender value :: younger)
    else (fillOldest sender value younger).map (slot :: ·)

/-- Takes in a value that has arrived. -/
def fill (buffer : InputBuffer) (sender : Address) (value : Word) : Except Fault InputBuffer :=
  match fillOldest sender value buffer.slots with
  | some slots => .ok { buffer with slots }
  | none => .error (.unmatchedData sender)

/-- The value in the oldest slot. -/
def peek? (buffer : InputBuffer) : Option Word := buffer.slots.head?.bind Slot.value?

/-- Whether the oldest slot holds a value. -/
def hasValue (buffer : InputBuffer) : Bool := buffer.peek?.isSome

/-- Whether the oldest slot is a marker. -/
def hasMarker (buffer : InputBuffer) : Bool := buffer.slots.head?.any Slot.isMarker

/-- Takes the value out of the oldest slot and retires the slot. -/
def pop? (buffer : InputBuffer) : Option (Word × InputBuffer) :=
  buffer.peek?.map fun value => (value, { buffer with slots := buffer.slots.tail })

/-- Retires the oldest slot if it is a marker. -/
def popMarker? (buffer : InputBuffer) : Option InputBuffer :=
  if buffer.hasMarker then some { buffer with slots := buffer.slots.tail } else none

/-- Retires all markers in front of the oldest slot that is none. -/
def dropMarkers (buffer : InputBuffer) : InputBuffer :=
  { buffer with slots := buffer.slots.dropWhile Slot.isMarker }

/-- The values of the oldest slots, up to the first slot without one. -/
def leadingValues : List Slot → List Word
  | [] => []
  | slot :: younger =>
    match slot.value? with
    | some value => value :: leadingValues younger
    | none => []

/-- Takes the values out of all oldest slots that hold one, and retires these slots. -/
def popAll (buffer : InputBuffer) : List Word × InputBuffer :=
  (leadingValues buffer.slots,
    { buffer with slots := buffer.slots.dropWhile fun slot => slot.value?.isSome })

/-- Retires all slots. -/
def clear (buffer : InputBuffer) : InputBuffer := { buffer with slots := [] }

/-- A value finds a slot exactly if one is expected from its sender. -/
theorem fillOldest_isSome (sender : Address) (value : Word) (slots : List Slot) :
    (fillOldest sender value slots).isSome = slots.contains (.awaiting sender) := by
  induction slots with
  | nil => rfl
  | cons slot younger ih =>
    by_cases awaits : slot = .awaiting sender
    · simp [fillOldest, awaits]
    · have differs : (Slot.awaiting sender == slot) = false := by simpa using Ne.symm awaits
      simp only [fillOldest, awaits, if_false, Option.isSome_map, ih, List.contains_cons, differs,
        Bool.false_or]

end InputBuffer
end MoveMachine
