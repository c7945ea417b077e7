import MoveMachine.Console.Arguments

/-!
# The command line

Reads the files that a command names, asks what the command does, and does it.
-/

set_option autoImplicit false

namespace MoveMachine.Console

/-- The trouble that an error of the system stands for. -/
def troubleOf : IO.Error → FileTrouble
  | .noFileOrDirectory .. => .missing
  | .noSuchThing .. => .missing
  | .inappropriateType .. => .directory
  | error => .other (toString error)

/-- The contents of a file. -/
def contentsOf (path : String) : IO (Except FileTrouble ByteArray) := do
  try
    return .ok (← IO.FS.readBinFile path)
  catch error =>
    return .error (troubleOf error)

/-- Writes a file. -/
def writeContents (path : String) (bytes : List Byte) : IO (Except FileTrouble Unit) := do
  try
    IO.FS.writeBinFile path bytes.toByteArray
    return .ok ()
  catch error =>
    return .error (troubleOf error)

/-- The files that a command reads. -/
def filesRead : Command → List String
  | .info topology => [topology]
  | .assemble topology program _ => [topology, program]
  | .run topology program _ => [topology, program]

/-- What a command does, once its file is written if it writes one. -/
def perform (command : Command) : IO Response := do
  let contents ← (filesRead command).mapM fun path => return (path, ← contentsOf path)
  let read : ReadFile := fun path => (contents.lookup path).getD (.error .missing)
  let response := command.execute read fun _ => .ok ()
  match response.written with
  | none => return response
  | some (path, bytes) =>
    match ← writeContents path bytes with
    | .ok () => return response
    | .error trouble => return command.execute read fun _ => .error trouble

end MoveMachine.Console

open MoveMachine.Console in
/-- Runs the command that the arguments write. -/
def main (arguments : List String) : IO UInt32 := do
  match Command.ofArguments? arguments with
  | none =>
    IO.eprint usage
    return 2
  | some command =>
    let response ← perform command
    IO.print response.printed
    IO.eprint response.report
    return UInt32.ofNat response.status
