import MoveMachine.Fault
import MoveMachine.Word
import MoveMachine.Topology

/-!
# Output buffers

An output buffer holds the values that its unit has produced and the
destinations that the program has given for them, each in order and each up to
the depth of the buffer. The first value and the first destination form a packet
(`OutputBuffer.pop?`), so values and destinations are paired by position however
they arrive.
-/

set_option autoImplicit false

namespace MoveMachine

/-- A value on its way. -/
structure Packet where
  value : Word
  /-- The output that the value leaves. -/
  sender : Address
  /-- The input that the value is meant for. -/
  destination : Address
deriving DecidableEq

/-- The values of a unit and their destinations. -/
structure OutputBuffer where
  /-- How many values, and how many destinations, fit into the buffer. -/
  depth : Depth
  /-- The destinations without a value, oldest first. -/
  destinations : List Address
  /-- The values without a destination, oldest first. -/
  values : List Word
deriving DecidableEq

namespace OutputBuffer

/-- A buffer without values and destinations. -/
def empty (depth : Depth) : OutputBuffer := ⟨depth, [], []⟩

/-- Whether no further value fits. -/
def valuesFull (buffer : OutputBuffer) : Bool := buffer.depth.value ≤ buffer.values.length

/-- Whether no further destination fits. -/
def destinationsFull (buffer : OutputBuffer) : Bool :=
  buffer.depth.value ≤ buffer.destinations.length

/-- Adds a value. -/
def pushValue (buffer : OutputBuffer) (value : Word) : Except Fault OutputBuffer :=
  if buffer.valuesFull then .error (.overflow .values buffer.depth.value)
  else .ok { buffer with values := buffer.values ++ [value] }

/-- Adds a destination. -/
def pushDestination (buffer : OutputBuffer) (destination : Address) :
    Except Fault OutputBuffer :=
  if buffer.destinationsFull then .error (.overflow .destinations buffer.depth.value)
  else .ok { buffer with destinations := buffer.destinations ++ [destination] }

/-- Whether there are both a value and a destination. -/
def hasPacket (buffer : OutputBuffer) : Bool :=
  !buffer.destinations.isEmpty && !buffer.values.isEmpty

/-- Takes out the oldest value with the oldest destination. -/
def pop? (buffer : OutputBuffer) (sender : Address) : Option (Packet × OutputBuffer) :=
  match buffer.destinations, buffer.values with
  | destination :: destinations, value :: values =>
    some (⟨value, sender, destination⟩, { buffer with destinations, values })
  | _, _ => none

/-- Drops all values and destinations. -/
def clear (buffer : OutputBuffer) : OutputBuffer := { buffer with destinations := [], values := [] }

end OutputBuffer
end MoveMachine
