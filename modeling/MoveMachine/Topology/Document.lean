import MoveMachine.Topology
import MoveMachine.Toml.Document

/-!
# Topology documents

A topology is written as a TOML document: one table `processor`, tables
`interconnect` and `unit` in double brackets, and for every unit an optional
table of parameters. Names without a meaning are refused everywhere but among
the parameters. `Topology.ofText` reads a document and checks what it declares.

Wherever a table with fixed names is expected, an array with the values of its
first names in order does as well.
-/

set_option autoImplicit false

namespace MoveMachine.Topology

open Toml (Value Entries)

/-- The entries of a table whose names are all among the given ones. -/
def fields? (names : List String) : Value → Option Entries
  | .table _ entries =>
    if entries.all fun entry => names.contains entry.1 then some entries else none
  | .array items => some (names.zip items)
  | _ => none

/-- The text of a value. -/
def text? : Value → Option String
  | .text content => some content
  | _ => none

/-- The number of a value, if it is an unsigned one of 32 bits. -/
def count? : Value → Option Nat
  | .integer number => if 0 ≤ number ∧ number < UInt32.size then some number.toNat else none
  | _ => none

/-- The value of a parameter. -/
def parameter? : Value → Option ParameterValue
  | .text content => some (.text content)
  | .integer number => some (.integer number)
  | .float bits => some (.float bits)
  | .boolean truth => some (.boolean truth)
  | _ => none

/-- The values of a sequence of tables or an array. -/
def items? : Value → Option (List Value)
  | .tables elements => some (elements.map (.table .header))
  | .array items => some items
  | _ => none

/-- An entry that has to be there. -/
def required? {α : Type} (entries : Entries) (name : String) (read? : Value → Option α) :
    Option α := do
  read? (← entries.lookup name)

/-- An entry that may be left out. -/
def optional? {α : Type} (entries : Entries) (name : String) (default : α)
    (read? : Value → Option α) : Option α :=
  match entries.lookup name with
  | some value => read? value
  | none => some default

/-- The name under which a moment that stands in place of the parameters becomes one. -/
def momentKey : String := "$__toml_private_datetime"

/-- The parameters of a unit. A moment in their place is a single parameter with its text. -/
def parameters? : Value → Option (NameMap ParameterValue)
  | .moment moment => some (.ofList [(momentKey, .text moment.text)])
  | .table _ entries => do
    let parameters ← entries.mapM fun (name, value) => do return (name, ← parameter? value)
    return .ofList parameters
  | _ => none

/-- The declaration of an interconnect. -/
def interconnect? (value : Value) : Option InterconnectDeclaration := do
  let entries ← fields? ["name", "template", "unit_count"] value
  return {
    name := ← required? entries "name" text?
    template := ← optional? entries "template" "" text?
    unitCount := ← required? entries "unit_count" count? }

/-- The declaration of a unit. -/
def unitDeclaration? (value : Value) : Option UnitDeclaration := do
  let entries ← fields? ["name", "type", "template", "number", "parameters"] value
  return {
    name := ← required? entries "name" text?
    type := ← required? entries "type" text?
    template := ← optional? entries "template" "" text?
    number := ← required? entries "number" count?
    parameters := ← optional? entries "parameters" .empty parameters? }

/-- The name of a processor and the depth of its buffers. -/
def processor? (value : Value) : Option (String × Nat) := do
  let entries ← fields? ["name", "buffer_depth"] value
  return (← required? entries "name" text?, ← required? entries "buffer_depth" count?)

/-- What a document declares. -/
structure Declaration where
  processor : String
  depth : Nat
  interconnects : List InterconnectDeclaration
  units : List UnitDeclaration

/-- The declaration in a document. -/
def declaration? (text : String) : Option Declaration := do
  let root ← Toml.document? text
  let entries ← fields? ["processor", "interconnect", "unit"] (.table .header root)
  let (processor, depth) ← required? entries "processor" processor?
  let interconnects ← optional? entries "interconnect" [] fun value => do
    (← items? value).mapM interconnect?
  let units ← optional? entries "unit" [] fun value => do (← items? value).mapM unitDeclaration?
  return { processor, depth, interconnects, units }

/-- The topology in a document. -/
def ofText (text : String) : Except TopologyError Topology :=
  match declaration? text with
  | none => .error .malformed
  | some declaration =>
    declare declaration.processor declaration.depth declaration.interconnects declaration.units

end MoveMachine.Topology
