import MoveMachine.Console.Command
import MoveMachine.Decimal.Reading

/-!
# Command lines

A command is written as its name, its files, and options, which may stand
anywhere after the name. The value of an option is the next argument, or follows
an equals sign.
-/

set_option autoImplicit false

namespace MoveMachine.Console

/-- How commands are written. -/
def usage : String :=
  lines
    ["usage: info TOPOLOGY",
      "       assemble TOPOLOGY PROGRAM [-o OUTPUT]",
      "       run TOPOLOGY PROGRAM [--image] [--max-steps N] [--memory-words N]",
      "           [--init-sequential] [--dump N]"]

/-- An argument that is not a file. -/
inductive Flag where
  | output (path : String)
  | image
  | maxSteps (count : Nat)
  | memoryWords (count : Nat)
  | initSequential
  | dump (count : Nat)

/-- The arguments after the name of a command. -/
structure Arguments where
  files : List String
  flags : List Flag

/-- The number that an argument writes. -/
def count? (argument : String) : Option Nat := Decimal.unsignedOfText? argument.toList

/-- The flag that needs a value, from its name and the value. -/
def valueFlag? (name value : String) : Option Flag :=
  if name = "-o" ∨ name = "--output" then some (.output value)
  else if name = "--max-steps" then (count? value).map .maxSteps
  else if name = "--memory-words" then (count? value).map .memoryWords
  else if name = "--dump" then (count? value).map .dump
  else none

/-- The flag that stands alone. -/
def plainFlag? (name : String) : Option Flag :=
  if name = "--image" then some .image
  else if name = "--init-sequential" then some .initSequential
  else none

/-- Separates an argument at its first equals sign. -/
def splitEquals (argument : String) : String × Option String :=
  let name := argument.toList.takeWhile (· != '=')
  match argument.toList.dropWhile (· != '=') with
  | [] => (argument, none)
  | _ :: value => (String.ofList name, some (String.ofList value))

/-- Whether an argument is an option. -/
def isOption (argument : String) : Bool :=
  argument.toList.head? == some '-' && argument != "-"

/-- The arguments with one more file in front. -/
def Arguments.addFile (arguments : Arguments) (path : String) : Arguments :=
  { arguments with files := path :: arguments.files }

/-- The arguments with one more flag in front. -/
def Arguments.addFlag (arguments : Arguments) (flag : Flag) : Arguments :=
  { arguments with flags := flag :: arguments.flags }

/-- Sorts arguments into files and flags. -/
def arguments? : List String → Option Arguments
  | [] => some ⟨[], []⟩
  | argument :: later =>
    if isOption argument then
      match splitEquals argument with
      | (name, some value) => do return (← arguments? later).addFlag (← valueFlag? name value)
      | (name, none) =>
        match plainFlag? name with
        | some flag => (arguments? later).map (·.addFlag flag)
        | none =>
          match later with
          | [] => none
          | value :: later => do return (← arguments? later).addFlag (← valueFlag? name value)
    else (arguments? later).map (·.addFile argument)

/-- The options of a run with one more flag; a flag of another command is refused. -/
def RunOptions.withFlag? (options : RunOptions) : Flag → Option RunOptions
  | .output _ => none
  | .image => some { options with image := true }
  | .maxSteps count => some { options with maxSteps := some count }
  | .memoryWords count => some { options with memoryWords := some count }
  | .initSequential => some { options with initSequential := true }
  | .dump count => some { options with dump := count }

/-- The command that a command line writes. -/
def Command.ofArguments? : List String → Option Command
  | [] => none
  | name :: later => do
    let arguments ← arguments? later
    match name, arguments.files, arguments.flags with
    | "info", [topology], [] => return .info topology
    | "assemble", [topology, program], [] => return .assemble topology program none
    | "assemble", [topology, program], [.output path] =>
      return .assemble topology program (some path)
    | "run", [topology, program], flags =>
      return .run topology program (← flags.foldlM RunOptions.withFlag? {})
    | _, _, _ => none

end MoveMachine.Console
