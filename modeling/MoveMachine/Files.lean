import MoveMachine.Topology.Document
import MoveMachine.Assembly

/-!
# Topologies and programs in files

A topology or a program text is read from a file that has to exist and to hold
text in UTF-8. How files are read is left to the caller, who gives a function
from paths to bytes.
-/

set_option autoImplicit false

namespace MoveMachine

/-- Why a file could not be read or written. -/
inductive FileTrouble where
  | missing
  | directory
  | notText
  /-- Anything else, in the words of the system. -/
  | other (description : String)
deriving DecidableEq

/-- The wording of a trouble with a file. -/
def FileTrouble.message : FileTrouble → String
  | .missing => "No such file or directory (os error 2)"
  | .directory => "Is a directory (os error 21)"
  | .notText => "stream did not contain valid UTF-8"
  | .other description => description

/-- Why a file did not give a topology or a program. -/
inductive FileError where
  | topology (error : TopologyError)
  | assembly (error : Assembly.Error)
  | notFound (path : String)
  | unreadable (trouble : FileTrouble)
deriving DecidableEq

/-- The wording of an error with a file. -/
def FileError.message : FileError → String
  | .topology error => error.message
  | .assembly error => error.message
  | .notFound path => s!"File not found: {path}"
  | .unreadable trouble => s!"I/O error: {trouble.message}"

/-- The contents of files, by path. -/
abbrev ReadFile := String → Except FileTrouble ByteArray

/-- The text of a file. -/
def readText (read : ReadFile) (path : String) : Except FileError String :=
  match read path with
  | .error .missing => .error (.notFound path)
  | .error trouble => .error (.unreadable trouble)
  | .ok bytes =>
    match String.fromUTF8? bytes with
    | none => .error (.unreadable .notText)
    | some text => .ok text

/-- The topology in a file. -/
def Topology.ofFile (read : ReadFile) (path : String) : Except FileError Topology := do
  (Topology.ofText (← readText read path)).mapError .topology

/-- The program that a file assembles to. -/
def assembleFile (topology : Topology) (read : ReadFile) (path : String) :
    Except FileError (List Instruction) := do
  (assemble topology (← readText read path)).mapError .assembly

end MoveMachine
