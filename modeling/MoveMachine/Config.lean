import MoveMachine.Topology
import MoveMachine.Fault
import MoveMachine.Text.Blank
import MoveMachine.Decimal.Reading

/-!
# Configuration

How many rounds a run may take and how much memory there is. The size of the
memory is the largest that any unit with access to memory asks for in its
parameters.

A parameter is a number if its text is one in ASCII digits, with blanks around
it and a plus sign in front allowed, and fits into 64 bits.
-/

set_option autoImplicit false

namespace MoveMachine

/-- The number that the text of a parameter writes. -/
def parameterNumber? (text : String) : Option Nat :=
  Decimal.unsignedOfText? (Text.trim text.toList)

/-- A parameter of a unit that has to be a number, if it is given. -/
def UnitDescription.number? (unit : UnitDescription) (key : String) : Except Fault (Option Nat) :=
  match unit.parameter? key with
  | none => .ok none
  | some text =>
    match parameterNumber? text with
    | some number => .ok (some number)
    | none => .error (.invalidParameter unit.name key text)

/-- Whether units of a kind have access to memory. -/
def UnitType.usesMemory : UnitType → Bool
  | .loadStore | .streamIn | .streamOut => true
  | .control | .reorder | .arithmetic => false

/-- How a machine is set up besides its topology. -/
structure Config where
  /-- After how many rounds a run stops at the latest. -/
  maxSteps : Nat
  /-- The number of words in memory. -/
  memoryWords : Nat
deriving DecidableEq

namespace Config

/-- The configuration when nothing else is asked for. -/
def default : Config := ⟨1000000, 256⟩

/-- A configuration with other limits, where these are given. -/
def override (config : Config) (maxSteps memoryWords : Option Nat) : Config :=
  ⟨maxSteps.getD config.maxSteps, memoryWords.getD config.memoryWords⟩

/-- The larger of two sizes, where one that is not given is smaller than any other. -/
def larger : Option Nat → Option Nat → Option Nat
  | none, second => second
  | first, none => first
  | some first, some second => some (max first second)

/-- The largest memory that one of the units asks for. -/
def requestedMemory : List UnitDescription → Except Fault (Option Nat)
  | [] => .ok none
  | unit :: later =>
    if unit.type.usesMemory then do
      let first ← unit.number? "memory_words"
      let rest ← requestedMemory later
      return larger first rest
    else requestedMemory later

/-- The configuration that a topology asks for. -/
def ofTopology (topology : Topology) : Except Fault Config := do
  let requested ← requestedMemory topology.units.values
  return { default with memoryWords := requested.getD default.memoryWords }

end Config
end MoveMachine
