import MoveMachine.Buffer.Input
import MoveMachine.Buffer.Output
import MoveMachine.Instruction

/-!
# The buffers of a unit

A unit has one input buffer for each input of its kind and one output buffer for
each output, by index. The program acts on them through effects: it opens slots
of inputs and gives destinations to outputs. An instruction has at most one
effect on either side of a unit (`Effect.of?`).
-/

set_option autoImplicit false

namespace MoveMachine

/-- What an instruction does to one side of one unit. -/
inductive Effect where
  /-- An input is told to expect a value. -/
  | register (buffer : UInt8) (source : Address)
  /-- A constant is written into an input. -/
  | write (buffer : UInt8) (value : Word)
  /-- An output is told where to send a value. -/
  | direct (buffer : UInt8) (destination : Address)
deriving DecidableEq

/-- The effect of an instruction on one side of the unit with a number, if it concerns that side. -/
def Effect.of? (side : Side) (unit : UInt8) : Instruction → Option Effect
  | .move source destination =>
    match side with
    | .input =>
      if destination.unit = unit ∧ destination.isNull = false then
        some (.register destination.buffer source)
      else none
    | .output =>
      if source.unit = unit ∧ source.isNull = false then some (.direct source.buffer destination)
      else none
  | .immediate value destination =>
    match side with
    | .input =>
      if destination.unit = unit ∧ destination.isNull = false then
        some (.write destination.buffer value)
      else none
    | .output => none
  | .jump _ => none

/-- The buffers of one unit. -/
structure Bank where
  /-- The number of the unit. -/
  unit : UInt8
  /-- The input buffers, by index. -/
  inputs : List InputBuffer
  /-- The output buffers, by index. -/
  outputs : List OutputBuffer
deriving DecidableEq

namespace Bank

/-- The empty buffers of a unit. -/
def empty (unit : UInt8) (type : UnitType) (depth : Depth) : Bank where
  unit
  inputs := (type.buffers .input).map fun _ => .empty depth
  outputs := (type.buffers .output).map fun _ => .empty depth

/-- The input buffer with an index. -/
def input? (bank : Bank) (index : UInt8) : Option InputBuffer := bank.inputs[index.toNat]?

/-- The output buffer with an index. -/
def output? (bank : Bank) (index : UInt8) : Option OutputBuffer := bank.outputs[index.toNat]?

/-- Puts another state of the input buffer with an index in its place. -/
def setInput (bank : Bank) (index : UInt8) (buffer : InputBuffer) : Bank :=
  { bank with inputs := bank.inputs.set index.toNat buffer }

/-- Puts another state of the output buffer with an index in its place. -/
def setOutput (bank : Bank) (index : UInt8) (buffer : OutputBuffer) : Bank :=
  { bank with outputs := bank.outputs.set index.toNat buffer }

/-- The address of the buffer with an index, on either side. -/
def address (bank : Bank) (index : UInt8) : Address := ⟨bank.unit, index⟩

/-- Changes an input buffer. -/
def alterInput (bank : Bank) (index : UInt8)
    (alter : InputBuffer → Except Fault InputBuffer) : Except Fault Bank :=
  match bank.input? index with
  | none => .error (.unknownBuffer (bank.address index))
  | some buffer => (alter buffer).map (bank.setInput index)

/-- Changes an output buffer. -/
def alterOutput (bank : Bank) (index : UInt8)
    (alter : OutputBuffer → Except Fault OutputBuffer) : Except Fault Bank :=
  match bank.output? index with
  | none => .error (.unknownBuffer (bank.address index))
  | some buffer => (alter buffer).map (bank.setOutput index)

/-- Carries out an effect. -/
def apply (bank : Bank) : Effect → Except Fault Bank
  | .register buffer source => bank.alterInput buffer (·.register source)
  | .write buffer value => bank.alterInput buffer (·.write value)
  | .direct buffer destination => bank.alterOutput buffer (·.pushDestination destination)

/-- Whether an effect need not wait: its buffer has room, or it does not exist, in which case
carrying the effect out tells so. -/
def canApply (bank : Bank) : Effect → Bool
  | .register buffer _ => (bank.input? buffer).all (!·.isFull)
  | .write buffer _ => (bank.input? buffer).all (!·.isFull)
  | .direct buffer _ => (bank.output? buffer).all (!·.destinationsFull)

/-- Whether a marker is the oldest slot of an input. -/
def hasMarker (bank : Bank) : Bool := bank.inputs.any InputBuffer.hasMarker

/-- Retires the markers in front of all inputs. -/
def dropMarkers (bank : Bank) : Bank :=
  { bank with inputs := bank.inputs.map InputBuffer.dropMarkers }

/-- Whether the input with an index has a value to take. -/
def ready (bank : Bank) (index : UInt8) : Bool := (bank.input? index).any InputBuffer.hasValue

/-- Takes a value from the input with an index. -/
def take? (bank : Bank) (index : UInt8) : Option (Word × Bank) := do
  let buffer ← bank.input? index
  let (value, popped) ← buffer.pop?
  return (value, bank.setInput index popped)

/-- Empties all buffers. -/
def clear (bank : Bank) : Bank :=
  { bank with inputs := bank.inputs.map .clear, outputs := bank.outputs.map .clear }

end Bank
end MoveMachine
