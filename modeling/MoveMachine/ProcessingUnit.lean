import MoveMachine.Kernel
import MoveMachine.Manager
import MoveMachine.Interconnect

/-!
# Processing units

A unit is its buffers, a manager for either side, and a kernel. In one step of a
unit, both managers and then the kernel make a step, and then the output hands
packets over to the interconnect until it has no more or the interconnect is
full.
-/

set_option autoImplicit false

namespace MoveMachine

/-- What the units of a machine share. -/
structure Shared where
  memory : Memory
  /-- What the control unit has collected. -/
  results : Array Word
  interconnect : Interconnect

/-- A unit at work. -/
structure ProcessingUnit where
  name : String
  number : UInt8
  type : UnitType
  buffers : Bank
  inputManager : Manager
  outputManager : Manager
  kernel : Kernel
deriving DecidableEq

/-! ## Handing packets over -/

/-- Hands packets of an output over while the interconnect has room; the bound is the number of
packets. -/
def handOver (sender : Address) :
    (bound : Nat) → OutputBuffer → Interconnect → Stepped (OutputBuffer × Interconnect)
  | 0, output, interconnect => .idle (output, interconnect)
  | bound + 1, output, interconnect =>
    if interconnect.canSend then
      match output.pop? sender with
      | none => .idle (output, interconnect)
      | some (packet, popped) =>
        (Stepped.attempt (popped, interconnect)
          ((interconnect.send packet).map (popped, ·))).andThen fun (output, interconnect) =>
            handOver sender bound output interconnect
    else .idle (output, interconnect)

/-- Hands over the packets of all outputs of a unit, of which the first has the given index. -/
def handOverAll (unit : UInt8) (interconnect : Interconnect) :
    (index : Nat) → List OutputBuffer → Stepped (List OutputBuffer × Interconnect)
  | _, [] => .idle ([], interconnect)
  | index, output :: later =>
    let packets := min output.values.length output.destinations.length
    match handOver ⟨unit, UInt8.ofNat index⟩ packets output interconnect with
    | ⟨(output, interconnect), .error fault⟩ => .fault (output :: later, interconnect) fault
    | ⟨(output, interconnect), .ok progressed⟩ =>
      let rest := handOverAll unit interconnect (index + 1) later
      ⟨(output :: rest.state.1, rest.state.2), rest.report.map (progressed || ·)⟩

namespace ProcessingUnit

/-- A unit as described, before it has done anything. -/
def ofDescription (unit : UnitDescription) (depth : Depth) : Except Fault ProcessingUnit := do
  let kernel ← Kernel.ofUnit unit
  return {
    name := unit.name
    number := unit.number
    type := unit.type
    buffers := .empty unit.number unit.type depth
    inputManager := .empty .input unit.number depth.value
    outputManager := .empty .output unit.number depth.value
    kernel }

/-- The manager of a side. -/
@[inline] def manager (unit : ProcessingUnit) : Side → Manager
  | .input => unit.inputManager
  | .output => unit.outputManager

/-- Puts another state of the manager of a side in its place. -/
@[inline] def setManager (unit : ProcessingUnit) (side : Side) (manager : Manager) : ProcessingUnit :=
  match side with
  | .input => { unit with inputManager := manager }
  | .output => { unit with outputManager := manager }

/-- Puts an instruction into the inbox of the manager of a side. -/
def receive (unit : ProcessingUnit) (side : Side) (instruction : Instruction) :
    Except Fault ProcessingUnit :=
  ((unit.manager side).receive instruction).map (unit.setManager side)

/-! ## The parts of a step -/

/-- A step of the manager of a side. -/
@[inline] def stepManager (side : Side) : ProcessingUnit × Shared → Stepped (ProcessingUnit × Shared)
  | (unit, shared) =>
    ((unit.manager side).step unit.buffers).map fun (manager, buffers) =>
      ({ unit.setManager side manager with buffers }, shared)

/-- A step of the kernel. -/
@[inline] def stepKernel : ProcessingUnit × Shared → Stepped (ProcessingUnit × Shared)
  | (unit, ⟨memory, results, interconnect⟩) =>
    (Kernel.step unit.number ⟨unit.kernel, unit.buffers, memory, results⟩).map
      fun ⟨kernel, buffers, memory, results⟩ =>
        ({ unit with kernel, buffers }, ⟨memory, results, interconnect⟩)

/-- The handing over of packets. -/
@[inline] def stepOutputs : ProcessingUnit × Shared → Stepped (ProcessingUnit × Shared)
  | (unit, shared) =>
    (handOverAll unit.number shared.interconnect 0 unit.buffers.outputs).map
      fun (outputs, interconnect) =>
        ({ unit with buffers := { unit.buffers with outputs } }, { shared with interconnect })

/-- One step of a unit. -/
def step (unit : ProcessingUnit) (shared : Shared) : Stepped (ProcessingUnit × Shared) :=
  (((stepManager .input (unit, shared)).andThen (stepManager .output)).andThen
    stepKernel).andThen stepOutputs

/-- Whether a unit has applied all its instructions and used up its micro-op. -/
def isQuiet (unit : ProcessingUnit) : Bool :=
  unit.inputManager.isIdle && unit.outputManager.isIdle && !unit.kernel.isBusy

/-- The unit set back to its beginning. -/
def reset (unit : ProcessingUnit) : ProcessingUnit :=
  { unit with
    buffers := unit.buffers.clear
    inputManager := unit.inputManager.reset
    outputManager := unit.outputManager.reset
    kernel := unit.kernel.reset }

end ProcessingUnit

/-! ## Units as endpoints -/

/-- The inputs of a single unit. -/
instance : Endpoints Bank where
  input? bank address := if address.unit = bank.unit then bank.input? address.buffer else none
  setInput bank address buffer :=
    if address.unit = bank.unit then bank.setInput address.buffer buffer else bank

/-- The unit with a number. -/
def unitNumbered? (units : List ProcessingUnit) (number : UInt8) : Option ProcessingUnit :=
  units.find? (·.number == number)

/-- Changes the units with a number. -/
def alterUnit (number : UInt8) (alter : ProcessingUnit → ProcessingUnit)
    (units : List ProcessingUnit) : List ProcessingUnit :=
  units.map fun unit => if unit.number = number then alter unit else unit

/-- The inputs of all units. -/
instance : Endpoints (List ProcessingUnit) where
  input? units address := (unitNumbered? units address.unit).bind (·.buffers.input? address.buffer)
  setInput units address buffer :=
    alterUnit address.unit
      (fun unit => { unit with buffers := unit.buffers.setInput address.buffer buffer }) units

end MoveMachine
