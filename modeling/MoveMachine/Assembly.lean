import MoveMachine.Assembly.Lexeme
import MoveMachine.Assembly.Operand
import MoveMachine.Instruction

/-!
# Assembly

An assembler reads program texts one after the other (`Assembler.parse`) and
then resolves the labels that its moves refer to (`Assembler.build`). A label
may be referred to before it is defined, also from an earlier text, so the
instruction of a move with such a source holds a placeholder until all texts are
read, and a fixup tells which instruction is to get the index of which label.

Lines are counted through all texts. The first error sticks: every later parse
and the final build return it again.
-/

set_option autoImplicit false

namespace MoveMachine

open Assembly

namespace Assembly

/-- A reference to a label. -/
structure Reference where
  label : String
  /-- The line of the move that refers to the label. -/
  line : Nat
deriving DecidableEq

/-- A move as it is known before all labels are. -/
structure Draft where
  /-- The instruction, with a placeholder where the index of a label is missing. -/
  instruction : Instruction
  /-- The label whose index is missing. -/
  reference? : Option Reference
deriving DecidableEq

/-- Where a label is defined. -/
structure Definition where
  /-- The index of the next instruction. -/
  index : Nat
  line : Nat
deriving DecidableEq

/-- The draft of a move to an input, or to nowhere. -/
def Draft.ofData (line : Nat) (destination : Address) : Source → Draft
  | .output source => ⟨.move source destination, none⟩
  | .constant value => ⟨.immediate value destination, none⟩
  | .label name => ⟨.immediate .zero destination, some ⟨name, line⟩⟩

/-- The draft of a move between operands that have been understood. -/
def Draft.ofOperands (statement : String) (line : Nat) : Source → Destination → Except Error Draft
  | .output _, .programCounter => .error (.invalidPcSource statement line)
  | .constant value, .programCounter => .ok ⟨.jump value, none⟩
  | .label name, .programCounter => .ok ⟨.jump .zero, some ⟨name, line⟩⟩
  | source, .input destination => .ok (ofData line destination source)
  | source, .nowhere => .ok (ofData line .null source)

/-- The draft of a move. Its source is looked at before its destination. -/
def Draft.ofMove (topology : Topology) (source destination : String) (line : Nat) :
    Except Error Draft := do
  let statement := source ++ " -> " ++ destination
  let origin ← readSource topology source statement line
  let target ← readDestination topology destination statement line
  ofOperands statement line origin target

/-- The index that a reference stands for. -/
def Reference.resolve (labels : List (String × Definition)) (reference : Reference) :
    Except Error Word :=
  match labels.lookup reference.label with
  | some definition => .ok (.ofNat definition.index)
  | none => .error (.unknownSymbol reference.label reference.line)

/-- Puts a value in the place of the constant of an instruction, if it has one. -/
def patch (value : Word) : Instruction → Instruction
  | .immediate _ destination => .immediate value destination
  | .jump _ => .jump value
  | .move source destination => .move source destination

/-- The reference of the instruction with an index. -/
structure Fixup where
  index : Nat
  reference : Reference
deriving DecidableEq

/-- Carries out fixups one after the other, up to the first label that is not known. -/
def applyFixups (labels : List (String × Definition)) (instructions : Array Instruction) :
    List Fixup → Except Error (Array Instruction)
  | [] => .ok instructions
  | fixup :: later => do
    let value ← fixup.reference.resolve labels
    applyFixups labels (instructions.modify fixup.index (patch value)) later

/-- Refuses a gap between lexemes that is not blank. -/
def checkGap (gap : List Char) (line : Nat) : Except Error Unit :=
  let stray := Text.trim gap
  if stray.isEmpty then .ok ()
  else
    let before := gap.takeWhile Text.isBlank
    .error (.unexpectedText (String.ofList stray) (line + Text.lineBreaks before))

end Assembly

/-- An assembler between two texts. -/
structure Assembler where
  /-- The processor whose buffers the moves name. -/
  topology : Topology
  /-- The instructions of the moves read so far, by index. -/
  instructions : Array Instruction
  /-- What is missing from them, in the order of their indices. -/
  fixups : Array Fixup
  /-- The labels defined so far. -/
  labels : List (String × Definition)
  /-- The line that the next text begins on. -/
  line : Nat
  /-- The first error, if there was one. -/
  failure : Option Error

namespace Assembler

/-- An assembler that has read no text. -/
def empty (topology : Topology) : Assembler :=
  { topology, instructions := #[], fixups := #[], labels := [], line := 1, failure := none }

/-- The number of moves read so far. -/
def size (assembler : Assembler) : Nat := assembler.instructions.size

/-- Defines a label at the next instruction. -/
def define (assembler : Assembler) (label : String) : Except Error Assembler :=
  if isReserved label then .error (.reservedLabel label assembler.line)
  else match assembler.labels.lookup label with
    | some first => .error (.duplicateLabel label assembler.line first.line)
    | none =>
      let definition := { index := assembler.size, line := assembler.line }
      .ok { assembler with labels := (label, definition) :: assembler.labels }

/-- Adds a move. -/
def addMove (assembler : Assembler) (source destination : String) : Except Error Assembler := do
  let draft ← Draft.ofMove assembler.topology source destination assembler.line
  let fixups := match draft.reference? with
    | some reference => assembler.fixups.push ⟨assembler.size, reference⟩
    | none => assembler.fixups
  return { assembler with instructions := assembler.instructions.push draft.instruction, fixups }

/-- Takes in what a lexeme means. -/
def accept (assembler : Assembler) : Token → Except Error Assembler
  | .comment => .ok assembler
  | .label name => assembler.define name
  | .move source destination => assembler.addMove source destination

/-- Moves on by the lines of a part of the text. -/
def advance (assembler : Assembler) (text : List Char) : Assembler :=
  { assembler with line := assembler.line + Text.lineBreaks text }

/-- Takes in the pieces of a text one after the other, up to the first error. What was taken in
before an error stays. -/
def acceptPieces (assembler : Assembler) : List Piece → Assembler × Except Error Unit
  | [] => (assembler, .ok ())
  | piece :: later =>
    match checkGap piece.gap assembler.line with
    | .error error => (assembler, .error error)
    | .ok () =>
      let atLexeme := assembler.advance piece.gap
      match atLexeme.accept piece.token with
      | .error error => (atLexeme, .error error)
      | .ok accepted => acceptPieces (accepted.advance piece.text) later

/-- Takes in a whole text. -/
def scan (assembler : Assembler) (text : List Char) : Assembler × Except Error Unit :=
  let parts := pieces text
  match assembler.acceptPieces parts.pieces with
  | (accepted, .error error) => (accepted, .error error)
  | (accepted, .ok ()) => (accepted.advance parts.tail, checkGap parts.tail accepted.line)

/-- Reads the next text, unless there was an error before. -/
def parse (assembler : Assembler) (text : String) : Assembler × Except Error Unit :=
  match assembler.failure with
  | some error => (assembler, .error error)
  | none =>
    match assembler.scan text.toList with
    | (scanned, .ok ()) => (scanned, .ok ())
    | (scanned, .error error) => ({ scanned with failure := some error }, .error error)

/-- The program of all texts read, or the first error. -/
def build (assembler : Assembler) : Except Error (List Instruction) :=
  match assembler.failure with
  | some error => .error error
  | none =>
    (applyFixups assembler.labels assembler.instructions assembler.fixups.toList).map Array.toList

end Assembler

/-- The program of a single text. -/
def assemble (topology : Topology) (text : String) : Except Error (List Instruction) :=
  match (Assembler.empty topology).parse text with
  | (_, .error error) => .error error
  | (assembler, .ok ()) => assembler.build

end MoveMachine
