import MoveMachine.Kernel.Arithmetic
import MoveMachine.Buffer.Bank
import MoveMachine.Config
import MoveMachine.Step

/-!
# Kernels

The kernel is the part of a unit that does its work: it takes values from the
inputs, acts on them, and gives values to the output. In one step it first
retires the markers in front of its inputs, then takes the next micro-op if it
needs one (`Kernel.fetch`), and then handles at most one element of work
(`Kernel.perform`). It never waits: while an input has no value or the output no
room, it does nothing.

A fault loses the values that were taken for the work that failed; nothing else
changes.
-/

set_option autoImplicit false

namespace MoveMachine

/-- The words that the units share, by address. -/
abbrev Memory := Array Word

/-- An operation that has to be executed a number of times more. -/
structure Repeated (Op : Type) where
  op : Op
  remaining : Nat
deriving DecidableEq

namespace Repeated

variable {Op : Type}

/-- The operation that a micro-op asks for; a count of zero asks for nothing. -/
def ofCount? (op : Op) (count : Nat) : Option (Repeated Op) :=
  if count = 0 then none else some ⟨op, count⟩

/-- What remains after one execution. -/
def next? (repeated : Repeated Op) : Option (Repeated Op) :=
  ofCount? repeated.op (repeated.remaining - 1)

end Repeated

/-- The state of a unit's work. -/
inductive Kernel where
  /-- Collects results. -/
  | control
  /-- Loads and stores as told. -/
  | loadStore (current : Option (Repeated MemoryOp))
  /-- Computes as told. -/
  | arithmetic (current : Option (Repeated ArithmeticOp))
  /-- Writes the words from an offset on; so many are written. -/
  | streamIn (offset written : Nat)
  /-- Emits a number of words from an offset on; so many are emitted. -/
  | streamOut (offset count emitted : Nat)
  /-- Passes values on. -/
  | reorder
deriving DecidableEq

/-- A kernel with all that it works on. -/
structure Workspace where
  kernel : Kernel
  /-- The buffers of the kernel's unit. -/
  buffers : Bank
  memory : Memory
  /-- What the control unit has collected. -/
  results : Array Word

namespace Bank

/-- The index of the first operand's input. -/
def firstOperand : UInt8 := 0

/-- The index of the second operand's input. -/
def secondOperand : UInt8 := 1

/-- The index of the input for micro-ops. -/
def opcodes : UInt8 := 2

/-- The index of the output. -/
def result : UInt8 := 0

/-- Whether the output has room for a value. -/
def hasRoom (bank : Bank) : Bool := (bank.output? result).any (!·.valuesFull)

/-- Gives a value to the output. -/
def emit (bank : Bank) (value : Word) : Except Fault Bank :=
  bank.alterOutput result (·.pushValue value)

/-- Takes the values of both operands. -/
def takeOperands? (bank : Bank) : Option (Word × Word × Bank) := do
  let (first, bank) ← bank.take? firstOperand
  let (second, bank) ← bank.take? secondOperand
  return (first, second, bank)

end Bank

namespace Kernel

/-- The kernel of a unit before it has done anything. -/
def ofUnit (unit : UnitDescription) : Except Fault Kernel :=
  match unit.type with
  | .control => .ok .control
  | .loadStore => .ok (.loadStore none)
  | .arithmetic => .ok (.arithmetic none)
  | .reorder => .ok .reorder
  | .streamIn => do
    let offset ← unit.number? "offset"
    return .streamIn (offset.getD 0) 0
  | .streamOut => do
    let offset ← unit.number? "offset"
    let count ← unit.number? "count"
    return .streamOut (offset.getD 0) (count.getD 0) 0

/-- The kernel set back to its beginning. -/
def reset : Kernel → Kernel
  | .control => .control
  | .loadStore _ => .loadStore none
  | .arithmetic _ => .arithmetic none
  | .streamIn offset _ => .streamIn offset 0
  | .streamOut offset count _ => .streamOut offset count 0
  | .reorder => .reorder

/-- Whether a micro-op is not yet used up. -/
def isBusy : Kernel → Bool
  | .loadStore current => current.isSome
  | .arithmetic current => current.isSome
  | .control | .streamIn .. | .streamOut .. | .reorder => false

/-! ## The parts of a step -/

/-- Retires the markers in front of all inputs. -/
@[inline] def dropMarkers (work : Workspace) : Stepped Workspace :=
  if work.buffers.hasMarker then .progress { work with buffers := work.buffers.dropMarkers }
  else .idle work

/-- Takes the next micro-op, if the unit needs one and there is one. -/
@[inline] def fetch (unit : UInt8) (work : Workspace) : Stepped Workspace :=
  match work.kernel with
  | .loadStore none =>
    match work.buffers.take? Bank.opcodes with
    | none => .idle work
    | some (word, buffers) =>
      match MemoryOp.ofCode? word.opcode with
      | none => .fault { work with buffers } (.invalidMicroOp unit .loadStore word.opcode)
      | some op =>
        let current := Repeated.ofCount? op word.repetitions
        .progress { work with buffers, kernel := .loadStore current }
  | .arithmetic none =>
    match work.buffers.take? Bank.opcodes with
    | none => .idle work
    | some (word, buffers) =>
      match ArithmeticOp.ofCode? word.opcode with
      | none => .fault { work with buffers } (.invalidMicroOp unit .arithmetic word.opcode)
      | some op =>
        let current := Repeated.ofCount? op word.repetitions
        .progress { work with buffers, kernel := .arithmetic current }
  | _ => .idle work

/-- Collects the values of all inputs, input by input. -/
@[inline] def collect (work : Workspace) : Stepped Workspace :=
  if work.buffers.inputs.any InputBuffer.hasValue then
    let popped := work.buffers.inputs.map InputBuffer.popAll
    .progress { work with
      buffers := { work.buffers with inputs := popped.map (·.2) }
      results := work.results ++ popped.flatMap (·.1) }
  else .idle work

/-- Passes the next value on. -/
def passOn (work : Workspace) : Stepped Workspace :=
  if work.buffers.hasRoom then
    match work.buffers.take? Bank.firstOperand with
    | none => .idle work
    | some (value, buffers) =>
      .attempt { work with buffers } ((buffers.emit value).map ({ work with buffers := · }))
  else .idle work

/-- Writes a word to memory and brings the kernel into another state. -/
def writeWord (unit : UInt8) (address : Nat) (value : Word) (next : Kernel) :
    Workspace → Stepped Workspace
  | ⟨kernel, buffers, memory, results⟩ =>
    if inside : address < memory.size then
      .progress ⟨next, buffers, memory.set address value, results⟩
    else
      .fault ⟨kernel, buffers, memory, results⟩ (.memoryOutOfBounds unit address memory.size)

/-- Writes the next value to memory, behind those already written. -/
def writeNext (unit : UInt8) (offset written : Nat) (work : Workspace) : Stepped Workspace :=
  match work.buffers.take? Bank.firstOperand with
  | none => .idle work
  | some (value, buffers) =>
    writeWord unit (offset + written) value (.streamIn offset (written + 1)) { work with buffers }

/-- Emits the next word of memory, behind those already emitted. -/
def emitNext (unit : UInt8) (offset count emitted : Nat) (work : Workspace) :
    Stepped Workspace :=
  if emitted < count && work.buffers.hasRoom then
    match work.memory[offset + emitted]? with
    | none => .fault work (.memoryOutOfBounds unit (offset + emitted) work.memory.size)
    | some value =>
      .attempt work ((work.buffers.emit value).map fun buffers =>
        { work with buffers, kernel := .streamOut offset count (emitted + 1) })
  else .idle work

/-- Loads the word at the next address. -/
def load (unit : UInt8) (remaining : Option (Repeated MemoryOp)) (work : Workspace) :
    Stepped Workspace :=
  if work.buffers.hasRoom then
    match work.buffers.take? Bank.firstOperand with
    | none => .idle work
    | some (address, buffers) =>
      match work.memory[address.toNat]? with
      | none =>
        .fault { work with buffers } (.memoryOutOfBounds unit address.toNat work.memory.size)
      | some value =>
        .attempt { work with buffers } ((buffers.emit value).map fun buffers =>
          { work with buffers, kernel := .loadStore remaining })
  else .idle work

/-- Stores the next value at the next address. -/
def store (unit : UInt8) (remaining : Option (Repeated MemoryOp)) (work : Workspace) :
    Stepped Workspace :=
  match work.buffers.takeOperands? with
  | none => .idle work
  | some (address, value, buffers) =>
    writeWord unit address.toNat value (.loadStore remaining) { work with buffers }

/-- Computes on the next pair of operands. -/
def combine (unit : UInt8) (op : ArithmeticOp) (remaining : Option (Repeated ArithmeticOp))
    (work : Workspace) : Stepped Workspace :=
  if work.buffers.hasRoom then
    match work.buffers.takeOperands? with
    | none => .idle work
    | some (first, second, buffers) =>
      .attempt { work with buffers } do
        let buffers ← buffers.emit (← op.compute unit first second)
        return { work with buffers, kernel := .arithmetic remaining }
  else .idle work

/-- Handles the next element of work, if there is one and the output has room for its result. -/
def perform (unit : UInt8) (work : Workspace) : Stepped Workspace :=
  match work.kernel with
  | .control => collect work
  | .reorder => passOn work
  | .streamIn offset written => writeNext unit offset written work
  | .streamOut offset count emitted => emitNext unit offset count emitted work
  | .loadStore none => .idle work
  | .loadStore (some current) =>
    match current.op with
    | .load => load unit current.next? work
    | .store => store unit current.next? work
  | .arithmetic none => .idle work
  | .arithmetic (some current) => combine unit current.op current.next? work

/-- One step of the kernel of the unit with a number. -/
def step (unit : UInt8) (work : Workspace) : Stepped Workspace :=
  ((dropMarkers work).andThen (fetch unit)).andThen (perform unit)

end Kernel
end MoveMachine
