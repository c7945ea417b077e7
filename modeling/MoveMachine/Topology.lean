import MoveMachine.Address
import MoveMachine.UnitType
import MoveMachine.NameMap
import MoveMachine.Decimal.Positional

/-!
# Processor topologies

A topology names the units of a processor and gives each a number. It is
declared as a list of units together with the depth of all buffers and the
interconnect that joins them; `Topology.declare` checks the declaration and
answers with the topology or with the first thing that is wrong.

The addresses of a unit's buffers follow from its number and its kind. A buffer
is found by the names of its unit and of itself (`Topology.resolve`), and an
address is checked against the unit with its number (`Topology.hasEndpoint`).
-/

set_option autoImplicit false

namespace MoveMachine

/-! ## Declarations -/

/-- The interconnect of a processor, as declared. -/
structure InterconnectDeclaration where
  name : String
  template : String
  /-- How many units it can join; unit numbers are below this. -/
  unitCount : Nat
deriving DecidableEq

/-- A parameter of a unit, as declared. -/
inductive ParameterValue where
  | text (content : String)
  | integer (number : Int)
  /-- A float, given by its bits. -/
  | float (bits : UInt64)
  | boolean (truth : Bool)
deriving DecidableEq

/-- A parameter as text: this is the form in which units read their parameters. -/
def ParameterValue.render : ParameterValue → String
  | .text content => content
  | .integer number => toString number
  | .float bits => Decimal.positional bits
  | .boolean truth => if truth then "true" else "false"

/-- A unit, as declared. -/
structure UnitDeclaration where
  name : String
  /-- The name of the unit's kind. -/
  type : String
  template : String
  number : Nat
  parameters : NameMap ParameterValue

/-! ## Checked descriptions -/

/-- The capacity that all buffers of a processor share. -/
structure Depth where
  value : Nat
  positive : 0 < value := by decide
  bounded : value ≤ 255 := by decide
deriving DecidableEq

/-- The depth of a given value, which has to be positive and fit into a byte. -/
def Depth.ofNat? (value : Nat) : Option Depth :=
  if inRange : 0 < value ∧ value ≤ 255 then some ⟨value, inRange.1, inRange.2⟩ else none

/-- A unit of a checked topology. -/
structure UnitDescription where
  name : String
  type : UnitType
  template : String
  number : UInt8
  parameters : NameMap String
deriving DecidableEq

namespace UnitDescription

/-- The named buffers on one side of a unit, with their addresses. -/
def buffers (unit : UnitDescription) (side : Side) : List (String × Address) :=
  (unit.type.buffers side).mapIdx fun index name => (name, ⟨unit.number, UInt8.ofNat index⟩)

/-- The address of a named buffer on one side of a unit. -/
def addressOf? (unit : UnitDescription) (side : Side) (buffer : String) : Option Address :=
  (unit.type.indexOf? side buffer).map (⟨unit.number, ·⟩)

/-- The text of a parameter. -/
def parameter? (unit : UnitDescription) (key : String) : Option String := unit.parameters.find? key

end UnitDescription

/-- A processor whose declaration was found in order. -/
structure Topology where
  name : String
  depth : Depth
  interconnect : InterconnectDeclaration
  /-- The units, by name. -/
  units : NameMap UnitDescription
deriving DecidableEq

/-- What can be wrong with a declaration. -/
inductive TopologyError where
  /-- The document has no declaration in it. -/
  | malformed
  | missingInterconnect (processor : String)
  | multipleInterconnects (processor : String) (count : Nat)
  | duplicateUnit (name : String)
  | unknownUnitType (unit type : String)
  | duplicateUnitNumber (number : UInt8) (first second : String)
  | unitNumberOutOfRange (unit : String) (number unitCount : Nat)
  | invalidBufferDepth (depth : Nat)
deriving DecidableEq

/-- Why a name has no address. -/
inductive ResolveError where
  | unknownUnit (unit : String)
  | unknownBuffer (unit buffer : String) (side : Side)
deriving DecidableEq

/-- The wording of an error in a declaration. -/
def TopologyError.message : TopologyError → String
  | .malformed => "Malformed topology description"
  | .missingInterconnect processor => s!"No interconnect given in topology '{processor}'"
  | .multipleInterconnects processor count =>
    s!"{count} interconnects given in topology '{processor}', expected exactly one"
  | .duplicateUnit name => s!"Two units with name '{name}'"
  | .unknownUnitType unit type => s!"Unit '{unit}' has unknown type '{type}'"
  | .duplicateUnitNumber number first second =>
    s!"Units '{first}' and '{second}' both have number {number.toNat}"
  | .unitNumberOutOfRange unit number unitCount =>
    s!"Unit '{unit}' number {number} out of range (interconnect serves {unitCount} units, "
      ++ "255 is reserved)"
  | .invalidBufferDepth depth => s!"Buffer depth {depth} out of range (1..=255)"

/-- The wording of a name without an address. -/
def ResolveError.message : ResolveError → String
  | .unknownUnit unit => s!"Unit '{unit}' not found"
  | .unknownBuffer unit buffer side => s!"Unit '{unit}' has no {side.text} buffer '{buffer}'"

namespace Topology

/-! ## Checking a declaration -/

/-- The unit with a number among those already described. -/
def numbered? (units : NameMap UnitDescription) (number : UInt8) : Option UnitDescription :=
  units.values.find? (·.number == number)

/-- The number of a unit, if the interconnect can address it and it is not the reserved one. -/
def unitNumber? (unitCount number : Nat) : Option UInt8 :=
  if number < 255 ∧ number < unitCount then some (UInt8.ofNat number) else none

/-- Adds a declared unit to those already described. -/
def describe (unitCount : Nat) (units : NameMap UnitDescription) (unit : UnitDeclaration) :
    Except TopologyError (NameMap UnitDescription) :=
  if units.contains unit.name then .error (.duplicateUnit unit.name)
  else match UnitType.ofName? unit.type with
    | none => .error (.unknownUnitType unit.name unit.type)
    | some type => match unitNumber? unitCount unit.number with
      | none => .error (.unitNumberOutOfRange unit.name unit.number unitCount)
      | some number => match numbered? units number with
        | some first => .error (.duplicateUnitNumber number first.name unit.name)
        | none => .ok (units.insert unit.name
            { name := unit.name, type, template := unit.template, number,
              parameters := unit.parameters.mapValues ParameterValue.render })

/-- Describes declared units, in the order of their declaration. -/
def describeAll (unitCount : Nat) :
    NameMap UnitDescription → List UnitDeclaration → Except TopologyError (NameMap UnitDescription)
  | units, [] => .ok units
  | units, unit :: rest => do describeAll unitCount (← describe unitCount units unit) rest

/-- The one interconnect of a processor. -/
def soleInterconnect (processor : String) :
    List InterconnectDeclaration → Except TopologyError InterconnectDeclaration
  | [] => .error (.missingInterconnect processor)
  | [interconnect] => .ok interconnect
  | interconnects => .error (.multipleInterconnects processor interconnects.length)

/-- The topology that a declaration describes, or the first violation: of the depth, then of the
number of interconnects, then of the units in the order of their declaration. -/
def declare (name : String) (depth : Nat) (interconnects : List InterconnectDeclaration)
    (units : List UnitDeclaration) : Except TopologyError Topology :=
  match Depth.ofNat? depth with
  | none => .error (.invalidBufferDepth depth)
  | some depth => do
    let interconnect ← soleInterconnect name interconnects
    let units ← describeAll interconnect.unitCount .empty units
    return { name, depth, interconnect, units }

/-! ## Names and addresses -/

/-- The unit with a name. -/
def unit? (topology : Topology) (name : String) : Option UnitDescription :=
  topology.units.find? name

/-- The unit with a number. -/
def unitNumbered? (topology : Topology) (number : UInt8) : Option UnitDescription :=
  numbered? topology.units number

/-- The units in the order of their numbers. -/
def unitsByNumber (topology : Topology) : List UnitDescription :=
  (List.range 256).filterMap fun number => topology.unitNumbered? (UInt8.ofNat number)

/-- Whether an address is that of a buffer on the given side. -/
def hasEndpoint (topology : Topology) (address : Address) (side : Side) : Bool :=
  match topology.unitNumbered? address.unit with
  | some unit => address.buffer.toNat < (unit.type.buffers side).length
  | none => false

/-- The address of a buffer, from the name of its unit and its own name. -/
def resolve (topology : Topology) (unit buffer : String) (side : Side) :
    Except ResolveError Address :=
  match topology.unit? unit with
  | none => .error (.unknownUnit unit)
  | some description => match description.addressOf? side buffer with
    | none => .error (.unknownBuffer unit buffer side)
    | some address => .ok address

end Topology
end MoveMachine
