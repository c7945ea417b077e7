import MoveMachine.Address
import MoveMachine.UnitType

/-!
# Faults

What can go wrong when a program is loaded or run. Full and empty buffers are
not faults: they are asked about before anything is put in or taken out. A fault
means that a rule between two parts of the machine was broken, that an image or
a parameter is no good, or that a unit was given something it cannot do.
-/

set_option autoImplicit false

namespace MoveMachine

/-- The bounded sequences of the machine. -/
inductive Stream where
  /-- What an input has been told to expect. -/
  | sources
  /-- Where an output has been told to send its values. -/
  | destinations
  /-- The values in an output. -/
  | values
  /-- The instructions in the inbox of a manager. -/
  | instructions
  /-- The packets in the interconnect. -/
  | inFlight
deriving DecidableEq

/-- What is wrong with a program image. -/
inductive ImageDefect where
  /-- The image is not a whole number of records. -/
  | ragged (size : Nat)
  /-- A record has the code of no instruction. -/
  | invalidCode (record code : Nat)
deriving DecidableEq

/-- What went wrong. -/
inductive Fault where
  | overflow (stream : Stream) (capacity : Nat)
  | unmatchedData (sender : Address)
  | unknownBuffer (address : Address)
  | invalidImage (defect : ImageDefect)
  | invalidMicroOp (unit : UInt8) (type : UnitType) (opcode : Nat)
  | divisionByZero (unit : UInt8)
  | memoryOutOfBounds (unit : UInt8) (address size : Nat)
  | memoryRange (offset length size : Nat)
  | invalidParameter (unit key value : String)
  | noControlUnit
  | multipleControlUnits (first second : String)
  | noProgram
deriving DecidableEq

/-- A stream as it is named in messages. -/
def Stream.text : Stream → String
  | .sources => "source"
  | .destinations => "destination"
  | .values => "value"
  | .instructions => "instruction"
  | .inFlight => "in-flight"

/-- The wording of a defect of an image. -/
def ImageDefect.message : ImageDefect → String
  | .ragged size => s!"{size} bytes is not a multiple of the 14-byte record"
  | .invalidCode record code => s!"record {record}: invalid opcode {code}"

/-- The wording of a fault. -/
def Fault.message : Fault → String
  | .overflow stream capacity => s!"Push into full {stream.text} stream (capacity {capacity})"
  | .unmatchedData sender => s!"Data from {sender.text} without a matching source registration"
  | .unknownBuffer address => s!"No buffer at {address.text}"
  | .invalidImage defect => s!"Invalid program image: {defect.message}"
  | .invalidMicroOp unit type opcode =>
    s!"Unit {unit.toNat} ({type.name}) received invalid micro-op {opcode}"
  | .divisionByZero unit => s!"Unit {unit.toNat}: division by zero"
  | .memoryOutOfBounds unit address size =>
    s!"Unit {unit.toNat}: memory address {address} out of bounds (memory has {size} words)"
  | .memoryRange offset length size =>
    s!"Memory range {offset}+{length} out of bounds (memory has {size} words)"
  | .invalidParameter unit key value =>
    s!"Unit '{unit}': parameter {key} = '{value}' is not a non-negative integer"
  | .noControlUnit => "Topology has no control unit"
  | .multipleControlUnits first second =>
    s!"Topology has control units {first} and {second}, expected exactly one"
  | .noProgram => "Backend not ready: no program loaded"

end MoveMachine
