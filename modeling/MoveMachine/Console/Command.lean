import MoveMachine.Files
import MoveMachine.Console.Report

/-!
# Commands

There are three commands: one describes a topology, one assembles a program and
may write its image to a file, and one runs a program, which is either assembled
or read as an image. `Command.execute` says what a command prints and writes. It
is a function of the contents of the files, so that it needs no files itself.

A command ends with its first failure. What was printed before stays.
-/

set_option autoImplicit false

namespace MoveMachine.Console

/-- How to run a program. -/
structure RunOptions where
  /-- Whether the program is an image. -/
  image : Bool := false
  maxSteps : Option Nat := none
  memoryWords : Option Nat := none
  /-- Whether memory starts out as 0, 1, 2 and so on. -/
  initSequential : Bool := false
  /-- How many words of memory are shown before and after the run. -/
  dump : Nat := 16

/-- What can be asked for. -/
inductive Command where
  | info (topology : String)
  | assemble (topology program : String) (output : Option String)
  | run (topology program : String) (options : RunOptions)

/-- Why a command failed. -/
inductive Failure where
  | file (error : FileError)
  | fault (cause : Fault)
  | reading (path : String) (trouble : FileTrouble)
  | writing (path : String) (trouble : FileTrouble)

/-- The wording of a failure. -/
def Failure.message : Failure → String
  | .file error => error.message
  | .fault cause => cause.message
  | .reading path _ => s!"reading {path}"
  | .writing path _ => s!"writing {path}"

/-- The trouble behind a failure. -/
def Failure.cause? : Failure → Option FileTrouble
  | .file (.unreadable trouble) => some trouble
  | .reading _ trouble => some trouble
  | .writing _ trouble => some trouble
  | .file _ | .fault _ => none

/-- A failure as it is reported. -/
def Failure.report (failure : Failure) : String :=
  let cause := match failure.cause? with
    | none => ""
    | some trouble => "\n\nCaused by:\n    " ++ trouble.message
  "Error: " ++ failure.message ++ cause ++ "\n"

/-- What a command does. -/
structure Response where
  /-- What it prints. -/
  printed : String
  /-- The file that it writes, with its bytes. -/
  written : Option (String × List Byte)
  /-- Why it failed, if it did. -/
  failure : Option Failure

namespace Response

/-- The response of a command that succeeds and writes no file. -/
def success (printed : String) : Response := ⟨printed, none, none⟩

/-- The response of a command that fails. -/
def failed (printed : String) (failure : Failure) : Response := ⟨printed, none, some failure⟩

/-- The exit status of a command. -/
def status (response : Response) : Nat := if response.failure.isSome then 1 else 0

/-- What a command reports as its failure. -/
def report (response : Response) : String :=
  match response.failure with
  | none => ""
  | some failure => failure.report

end Response

namespace Command

/-- Describes a topology. -/
def describe (read : ReadFile) (topologyPath : String) : Response :=
  match Topology.ofFile read topologyPath with
  | .error error => .failed "" (.file error)
  | .ok topology => .success (topologyText topology)

/-- The topology and the program in two files. -/
def programOf (read : ReadFile) (topologyPath programPath : String) :
    Except FileError (List Instruction) := do
  assembleFile (← Topology.ofFile read topologyPath) read programPath

/-- Assembles a program, and writes its image if a path for it is given. -/
def assembleTo (read : ReadFile) (write : String → Except FileTrouble Unit)
    (topologyPath programPath : String) (output : Option String) : Response :=
  match programOf read topologyPath programPath with
  | .error error => .failed "" (.file error)
  | .ok program =>
    let image := Image.ofProgram program
    let printed := programText program image
    match output with
    | none => .success printed
    | some path =>
      match write path with
      | .error trouble => .failed printed (.writing path trouble)
      | .ok () => ⟨printed ++ s!"Written to   : {path}\n", some (path, image.bytes), none⟩

/-- The image in a file. -/
def imageOfFile (read : ReadFile) (path : String) : Except Failure Image := do
  let bytes ← (read path).mapError (.reading path)
  (Image.ofBytes bytes.toList).mapError .fault

/-- The configuration that a topology asks for, with what the options ask for instead. -/
def configure (topology : Topology) (options : RunOptions) : Except Fault Config := do
  return (← Config.ofTopology topology).override options.maxSteps options.memoryWords

/-- The words 0, 1, 2 and so on. -/
def sequentialWords (count : Nat) : List Word := (List.range count).map .ofNat

/-- A machine of a topology with a program loaded. -/
def loadedMachine (topology : Topology) (config : Config) (image : Image)
    (initSequential : Bool) : Except Fault Machine := do
  let machine ← Machine.ofTopology topology config
  let machine ←
    if initSequential then machine.writeMemory 0 (sequentialWords config.memoryWords)
    else pure machine
  machine.load image

/-- The machine that a command runs. -/
def machineOf (read : ReadFile) (topologyPath programPath : String) (options : RunOptions) :
    Except Failure Machine := do
  let topology ← (Topology.ofFile read topologyPath).mapError .file
  let config ← (configure topology options).mapError .fault
  let image ←
    if options.image then imageOfFile read programPath
    else Image.ofProgram <$> (assembleFile topology read programPath).mapError .file
  (loadedMachine topology config image options.initSequential).mapError .fault

/-- Runs the program of a machine and shows so many words of memory before and after. -/
def runMachine (machine : Machine) (shown : Nat) : Response :=
  match machine.readMemory 0 shown with
  | .error fault => .failed "" (.fault fault)
  | .ok before =>
    let printed := s!"Memory before: {wordsText before}\n"
    match machine.run with
    | (_, .error fault) => .failed printed (.fault fault)
    | (ended, .ok report) =>
      match ended.readMemory 0 shown with
      | .error fault => .failed printed (.fault fault)
      | .ok after => .success (printed ++ runText report ended.pc after)

/-- Runs a program. -/
def simulate (read : ReadFile) (topologyPath programPath : String) (options : RunOptions) :
    Response :=
  match machineOf read topologyPath programPath options with
  | .error failure => .failed "" failure
  | .ok machine => runMachine machine (min options.dump machine.config.memoryWords)

/-- What a command does, given the contents of the files and which files can be written. -/
def execute (read : ReadFile) (write : String → Except FileTrouble Unit) : Command → Response
  | .info topology => describe read topology
  | .assemble topology program output => assembleTo read write topology program output
  | .run topology program options => simulate read topology program options

end Command
end MoveMachine.Console
