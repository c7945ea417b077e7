import MoveMachine.ProcessingUnit
import MoveMachine.Image

/-!
# The machine

A machine is built from a topology with exactly one control unit. Programs and
memory contents are put into it from outside; running a program proceeds in
rounds (`Machine.round`). In each round

* the next instruction is issued, if all managers concerned have room for it,
* every unit makes a step, in the order of the unit numbers,
* the interconnect delivers what the inputs expect.

A run ends with the first round that changes nothing, with a fault, or after a
given number of rounds (`Machine.run`). It is complete if the program has come to
its end and all instructions have been applied; otherwise it has stalled.
-/

set_option autoImplicit false

namespace MoveMachine

/-- A processor with everything that changes while it runs. -/
structure Machine where
  topology : Topology
  config : Config
  /-- The units, in the order of their numbers. -/
  units : List ProcessingUnit
  shared : Shared
  /-- The program, once one is loaded. -/
  program : Option (List Instruction)
  /-- The index of the next instruction. -/
  pc : Nat
  /-- Whether the program has been found to be at its end. -/
  halted : Bool
  /-- The number of instructions issued. -/
  issued : Nat

/-- How a run ended. -/
inductive RunOutcome where
  | completed
  | stalled
  | stepLimit
deriving DecidableEq

/-- What is known after a run. -/
structure RunReport where
  outcome : RunOutcome
  /-- The number of rounds of this run. -/
  steps : Nat
  /-- The number of instructions issued since the program was loaded. -/
  issued : Nat
  delivered : Nat
  discarded : Nat
  results : List Word
deriving DecidableEq

/-- An outcome as it is named in reports. -/
def RunOutcome.text : RunOutcome → String
  | .completed => "completed"
  | .stalled => "stalled"
  | .stepLimit => "step limit reached"

namespace Machine

/-! ## Building a machine -/

/-- Refuses a topology unless exactly one of its units is a control unit. -/
def checkControl (topology : Topology) : Except Fault Unit :=
  match topology.units.values.filter (·.type = .control) with
  | [] => .error .noControlUnit
  | [_] => .ok ()
  | first :: second :: _ => .error (.multipleControlUnits first.name second.name)

/-- Units in the order of their numbers. -/
def inOrder (units : List ProcessingUnit) : List ProcessingUnit :=
  (List.range 256).filterMap fun number => unitNumbered? units (UInt8.ofNat number)

/-- A machine without a program, with all memory zero. -/
def ofTopology (topology : Topology) (config : Config) : Except Fault Machine := do
  checkControl topology
  let units ← topology.units.values.mapM (ProcessingUnit.ofDescription · topology.depth)
  return {
    topology
    config
    units := inOrder units
    shared := {
      memory := Array.replicate config.memoryWords .zero
      results := #[]
      interconnect := .empty (max units.length 1 * topology.depth.value) }
    program := none
    pc := 0
    halted := false
    issued := 0 }

/-- A machine with the configuration that its topology asks for. -/
def ofTopologyAlone (topology : Topology) : Except Fault Machine := do
  ofTopology topology (← Config.ofTopology topology)

/-! ## Programs and memory from outside -/

/-- The machine set back to its beginning; the program and the contents of memory stay. -/
def reset (machine : Machine) : Machine :=
  { machine with
    units := machine.units.map .reset
    shared := {
      memory := machine.shared.memory
      results := #[]
      interconnect := machine.shared.interconnect.reset }
    pc := 0
    halted := false
    issued := 0 }

/-- Loads a program if it suits the topology. -/
def load (machine : Machine) (image : Image) : Except Fault Machine := do
  image.validate machine.topology
  let program ← image.program
  return { machine.reset with program := some program }

/-- Whether a program is loaded. -/
def isReady (machine : Machine) : Bool := machine.program.isSome

/-- Refuses a range of addresses that is not inside memory. -/
def checkRange (machine : Machine) (offset length : Nat) : Except Fault Unit :=
  if offset + length ≤ machine.shared.memory.size then .ok ()
  else .error (.memoryRange offset length machine.shared.memory.size)

/-- The memory with words from an offset on replaced. -/
def overwrite (memory : Memory) (offset : Nat) : List Word → Memory
  | [] => memory
  | value :: later => overwrite (memory.setIfInBounds offset value) (offset + 1) later

/-- Writes words to memory, all or none. -/
def writeMemory (machine : Machine) (offset : Nat) (values : List Word) :
    Except Fault Machine := do
  machine.checkRange offset values.length
  let memory := overwrite machine.shared.memory offset values
  return { machine with shared := { machine.shared with memory } }

/-- Reads words from memory. -/
def readMemory (machine : Machine) (offset length : Nat) : Except Fault (List Word) := do
  machine.checkRange offset length
  return (machine.shared.memory.extract offset (offset + length)).toList

/-! ## Issuing instructions -/

/-- The managers that an instruction concerns: that of its source's output side and that of its
destination's input side, where these are not null. -/
def targets (instruction : Instruction) : List (Address × Side) :=
  let sides := match instruction with
    | .move source destination => [(source, Side.output), (destination, Side.input)]
    | .immediate _ destination => [(destination, Side.input)]
    | .jump _ => []
  sides.filter fun (address, _) => !address.isNull

/-- Whether all managers concerned have room for an instruction. -/
def canIssue (units : List ProcessingUnit) : List (Address × Side) → Except Fault Bool
  | [] => .ok true
  | (address, side) :: later =>
    match unitNumbered? units address.unit with
    | none => .error (.unknownBuffer address)
    | some unit => do
      let ready ← canIssue units later
      return (unit.manager side).canAccept && ready

/-- Puts an instruction into the inbox of one manager. -/
def issueTo (instruction : Instruction) (address : Address) (side : Side)
    (units : List ProcessingUnit) : Except Fault (List ProcessingUnit) :=
  match unitNumbered? units address.unit with
  | none => .ok units
  | some unit =>
    (unit.receive side instruction).map fun received =>
      alterUnit address.unit (fun _ => received) units

/-- Puts an instruction into the inboxes of all managers concerned. -/
def issueToAll (instruction : Instruction) :
    List (Address × Side) → List ProcessingUnit → Except Fault (List ProcessingUnit)
  | [], units => .ok units
  | (address, side) :: later, units => do
    issueToAll instruction later (← issueTo instruction address side units)

/-- Issues a move, to all managers that it concerns or to none. -/
def issue (machine : Machine) (instruction : Instruction) : Stepped Machine :=
  let targets := targets instruction
  match canIssue machine.units targets with
  | .error fault => .fault machine fault
  | .ok false => .idle machine
  | .ok true =>
    .attempt machine ((issueToAll instruction targets machine.units).map fun units =>
      { machine with units, pc := machine.pc + 1, issued := machine.issued + 1 })

/-- Goes on in the program by one instruction at most, or finds it at its end. -/
def dispatch (machine : Machine) : Stepped Machine :=
  if machine.halted then .idle machine
  else
    match machine.program with
    | none => .idle machine
    | some program =>
      match program[machine.pc]? with
      | none => .progress { machine with halted := true }
      | some (.jump target) =>
        .progress { machine with pc := target.toNat, issued := machine.issued + 1 }
      | some instruction => machine.issue instruction

/-! ## Rounds and runs -/

/-- A step of each unit, up to the first fault. -/
def stepUnits : List ProcessingUnit → Shared → Stepped (List ProcessingUnit × Shared)
  | [], shared => .idle ([], shared)
  | unit :: later, shared =>
    match unit.step shared with
    | ⟨(unit, shared), .error fault⟩ => .fault (unit :: later, shared) fault
    | ⟨(unit, shared), .ok progressed⟩ =>
      let rest := stepUnits later shared
      ⟨(unit :: rest.state.1, rest.state.2), rest.report.map (progressed || ·)⟩

/-- The part of a round in which the units work. -/
def work : Machine → Stepped Machine
  | ⟨topology, config, units, shared, program, pc, halted, issued⟩ =>
    (stepUnits units shared).map fun (units, shared) =>
      ⟨topology, config, units, shared, program, pc, halted, issued⟩

/-- The part of a round in which packets arrive. -/
def deliver (machine : Machine) : Stepped Machine :=
  match machine.shared.interconnect.deliver machine.units with
  | (interconnect, units, count) =>
    ⟨{ machine with units, shared := { machine.shared with interconnect } }, count.map (0 < ·)⟩

/-- One round. -/
def round (machine : Machine) : Stepped Machine :=
  (machine.dispatch.andThen work).andThen deliver

/-- Whether the program is at its end and nothing is left to be applied or delivered. -/
def isFinished (machine : Machine) : Bool :=
  machine.halted && machine.units.all (·.isQuiet) && machine.shared.interconnect.inFlight.isEmpty

/-- What is known after so many rounds of a run. -/
def report (machine : Machine) (outcome : RunOutcome) (steps : Nat) : RunReport where
  outcome
  steps
  issued := machine.issued
  delivered := machine.shared.interconnect.delivered
  discarded := machine.shared.interconnect.discarded
  results := machine.shared.results.toList

/-- Runs at most a number of rounds more, after those already done in this run. -/
def runFrom (machine : Machine) (done : Nat) : (left : Nat) → Machine × Except Fault RunReport
  | 0 => (machine, .ok (machine.report .stepLimit done))
  | left + 1 =>
    let ended := machine.round
    match ended.report with
    | .error fault => (ended.state, .error fault)
    | .ok true => runFrom ended.state (done + 1) left
    | .ok false =>
      let outcome := if ended.state.isFinished then RunOutcome.completed else .stalled
      (ended.state, .ok (ended.state.report outcome (done + 1)))

/-- Runs the loaded program until nothing changes any more, or up to the configured number of
rounds. -/
def run (machine : Machine) : Machine × Except Fault RunReport :=
  if machine.isReady then machine.runFrom 0 machine.config.maxSteps
  else (machine, .error .noProgram)

end Machine
end MoveMachine
