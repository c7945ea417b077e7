import MoveMachine.Proofs.Assembly.Statements

/-!
# The grammar of program texts

A program is a list of statements: comments, definitions of labels, and moves. They
are written one on a line (`Grammar.text`), with spaces and tabs as one likes around
the arrow of a move, inside its parentheses and in front of the colon of a label.

What a program means is said by going through its statements twice
(`Grammar.meaning`). The first time, each label is given the number of moves in front
of it, and the operands of each move are looked up: its source among the outputs and
its destination among the inputs (`Outline.addAll`). The second time, the labels that
moves refer to are replaced by their numbers (`Entry.instruction`). Both times the
first thing that is wrong is the answer.

How a statement is laid out matters in one place only: errors quote the operands as
they are written.
-/

set_option autoImplicit false

namespace MoveMachine.Grammar

open Assembly (Error Definition)
open Text

/-! ## Words, numbers and spacing -/

/-- Spaces and tabs, possibly none. -/
structure Spacing where
  chars : List Char
  blank : ∀ char ∈ chars, char = ' ' ∨ char = '\t'

/-- Something with spacing on both sides. -/
structure Spaced (Item : Type) where
  before : Spacing
  item : Item
  after : Spacing

def Spaced.chars {Item : Type} (spell : Item → List Char) (spaced : Spaced Item) : List Char :=
  spaced.before.chars ++ spell spaced.item ++ spaced.after.chars

/-- A word of ASCII letters, digits and underscores. -/
structure Name where
  chars : List Char
  nonempty : chars ≠ []
  ascii : ∀ char ∈ chars, isAsciiWordChar char = true

def Name.text (name : Name) : String := String.ofList name.chars

/-- An ASCII word that does not begin with a digit. -/
structure Identifier extends Name where
  noDigit : ∀ char ∈ chars.head?, char.isDigit = false

/-- A number below a bound, in decimal. There may be zeros in front. -/
structure Numeral (bound : Nat) where
  value : Fin bound
  zeros : Nat

def Numeral.chars {bound : Nat} (numeral : Numeral bound) : List Char :=
  List.replicate numeral.zeros '0' ++ Nat.toDigits 10 numeral.value

/-- A buffer, by the names of its unit and of itself. -/
structure Qualified where
  unit : Name
  buffer : Name

def Qualified.chars (qualified : Qualified) : List Char :=
  qualified.unit.chars ++ '@' :: qualified.buffer.chars

/-! ## Operands -/

/-- The source of a move. -/
inductive Source where
  /-- A number, after a dollar sign. -/
  | number (value : Numeral UInt64.size)
  /-- A micro-op and how often it is to be done, in parentheses. -/
  | repeated (op : Spaced MicroOp) (count : Spaced (Numeral UInt32.size))
  /-- A micro-op that is to be done once. -/
  | single (op : MicroOp)
  | output (qualified : Qualified)
  /-- A label. -/
  | label (name : Identifier)

def Source.chars : Source → List Char
  | .number value => '$' :: value.chars
  | .repeated op count =>
    '(' :: (op.chars (·.token.toList) ++ ',' :: count.chars Numeral.chars) ++ [')']
  | .single op => op.token.toList
  | .output qualified => qualified.chars
  | .label name => name.chars

def Source.text (source : Source) : String := String.ofList source.chars

/-- The destination of a move. -/
inductive Destination where
  | input (qualified : Qualified)
  | programCounter
  | null

def Destination.chars : Destination → List Char
  | .input qualified => qualified.chars
  | .programCounter => ['p', 'c']
  | .null => ['n', 'u', 'l', 'l']

def Destination.text (destination : Destination) : String := String.ofList destination.chars

/-! ## Statements -/

/-- A move, with an arrow between its operands. -/
structure Move where
  source : Source
  beforeArrow : Spacing
  afterArrow : Spacing
  destination : Destination

namespace Move

def chars (move : Move) : List Char :=
  move.source.chars ++ move.beforeArrow.chars ++ ['-', '>'] ++ move.afterArrow.chars
    ++ move.destination.chars

/-- A move as errors quote it. -/
def quoted (move : Move) : String := move.source.text ++ " -> " ++ move.destination.text

end Move

/-- A statement. -/
inductive Statement where
  | comment (remark : List Char) (oneLine : '\n' ∉ remark)
  /-- The definition of a label. -/
  | label (name : Identifier) (beforeColon : Spacing)
  | move (parts : Move)

def Statement.chars : Statement → List Char
  | .comment remark _ => '/' :: '/' :: remark
  | .label name beforeColon => name.chars ++ beforeColon.chars ++ [':']
  | .move parts => parts.chars

/-- The characters of a program, with each statement on a line of its own. -/
def chars (statements : List Statement) : List Char :=
  statements.flatMap fun statement => statement.chars ++ ['\n']

/-- The text of a program. -/
def text (statements : List Statement) : String := String.ofList (chars statements)

/-! ## What operands mean -/

/-- What a source means, in a move that errors quote. A label that is named like a micro-op is that
micro-op. -/
def Source.meaning (topology : Topology) (quoted : String) (line : Nat) :
    Source → Except Error Assembly.Source
  | .number value => .ok (.constant (.ofNat value.value))
  | .repeated op count => .ok (.constant (.ofMicroOp op.item.code count.item.value))
  | .single op => .ok (.constant (.ofMicroOp op.code 1))
  | .output ⟨unit, buffer⟩ => match topology.resolve unit.text buffer.text .output with
    | .ok address => .ok (.output address)
    | .error reason => .error (.ofResolve .source quoted line reason)
  | .label name => match MicroOp.ofToken? name.text with
    | some op => .ok (.constant (.ofMicroOp op.code 1))
    | none =>
      if name.text = "pc" ∨ name.text = "null" then .error (.malformedSource name.text quoted line)
      else .ok (.label name.text)

/-- What a destination means, in a move that errors quote. -/
def Destination.meaning (topology : Topology) (quoted : String) (line : Nat) :
    Destination → Except Error Assembly.Destination
  | .input ⟨unit, buffer⟩ => match topology.resolve unit.text buffer.text .input with
    | .ok address => .ok (.input address)
    | .error reason => .error (.ofResolve .destination quoted line reason)
  | .programCounter => .ok .programCounter
  | .null => .ok .nowhere

/-! ## The first pass -/

/-- What the first pass makes of a move. -/
inductive Entry where
  | ready (instruction : Instruction)
  /-- The index of a label is to go to a destination. -/
  | awaiting (label : String) (destination : Assembly.Destination) (line : Nat)

/-- What the first pass makes of a move on a line: an output cannot go to the program counter. -/
def Move.entry (topology : Topology) (line : Nat) (move : Move) : Except Error Entry := do
  let source ← move.source.meaning topology move.quoted line
  let destination ← move.destination.meaning topology move.quoted line
  match source, destination with
  | .output source, .input destination => .ok (.ready (.move source destination))
  | .output source, .nowhere => .ok (.ready (.move source .null))
  | .output _, .programCounter => .error (.invalidPcSource move.quoted line)
  | .constant value, destination => .ok (.ready (destination.receive value))
  | .label name, destination => .ok (.awaiting name destination line)

/-- A program after the first pass. -/
structure Outline where
  labels : List (String × Definition)
  entries : List Entry

namespace Outline

/-- Defines a label on a line. -/
def define (outline : Outline) (line : Nat) (label : String) : Except Error Outline :=
  if label = "pc" ∨ label = "null" ∨ (MicroOp.ofToken? label).isSome = true then
    .error (.reservedLabel label line)
  else match outline.labels.lookup label with
    | some first => .error (.duplicateLabel label line first.line)
    | none =>
      .ok { outline with labels := (label, ⟨outline.entries.length, line⟩) :: outline.labels }

/-- Adds the statement on a line. -/
def add (topology : Topology) (line : Nat) (outline : Outline) :
    Statement → Except Error Outline
  | .comment _ _ => .ok outline
  | .label name _ => outline.define line name.text
  | .move parts => do
    let entry ← parts.entry topology line
    return { outline with entries := outline.entries ++ [entry] }

/-- Adds statements, of which the first is on a line. -/
def addAll (topology : Topology) : Nat → Outline → List Statement → Except Error Outline
  | _, outline, [] => .ok outline
  | line, outline, statement :: later => do
    addAll topology (line + 1) (← outline.add topology line statement) later

end Outline

/-! ## The second pass -/

/-- The instruction of a move, once all labels are known. -/
def Entry.instruction (labels : List (String × Definition)) : Entry → Except Error Instruction
  | .ready instruction => .ok instruction
  | .awaiting label destination line => match labels.lookup label with
    | some definition => .ok (destination.receive (.ofNat definition.index))
    | none => .error (.unknownSymbol label line)

/-- What a program means. -/
def meaning (topology : Topology) (statements : List Statement) :
    Except Error (List Instruction) := do
  let outline ← Outline.addAll topology 1 ⟨[], []⟩ statements
  outline.entries.mapM (Entry.instruction outline.labels)

end MoveMachine.Grammar
