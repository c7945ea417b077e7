import MoveMachine.Proofs.Assembly.Operands
import MoveMachine.Proofs.Assembly.Reading

/-!
# Programs mean what their statements say

An assembler goes through a program as the first pass does: after each statement it is
where the outline of the statements so far says (`Outline.assembler`), or it stops with
the same error. What it builds in the end is what the second pass makes of the outline.
So the text of a program, however it is laid out, is assembled to what the program
means (`assemble_eq_meaning`).
-/

set_option autoImplicit false

namespace MoveMachine.Grammar

open Assembly Text

variable {topology : Topology} {line : Nat}

/-! ## Moves -/

/-- What an assembler keeps of a move. -/
def Entry.draft : Entry → Draft
  | .ready instruction => ⟨instruction, none⟩
  | .awaiting label destination line => ⟨destination.receive .zero, some ⟨label, line⟩⟩

/-- Both come to the same instruction once the labels are known. -/
theorem Entry.draft_resolve (labels : List (String × Definition)) (entry : Entry) :
    entry.draft.resolve labels = entry.instruction labels := by
  cases entry with
  | ready instruction => rfl
  | awaiting label destination line =>
    simp only [draft, Draft.resolve, Reference.resolve, instruction]
    cases labels.lookup label with
    | none => rfl
    | some definition => cases destination <;> rfl

theorem Move.ofMove_text (move : Move) :
    Draft.ofMove topology move.source.text move.destination.text line =
      (move.entry topology line).map Entry.draft := by
  have quoted : move.source.text ++ " -> " ++ move.destination.text = move.quoted := rfl
  simp only [Draft.ofMove, quoted, Source.readSource_text, Destination.readDestination_text,
    Move.entry]
  cases move.source.meaning topology move.quoted line with
  | error error => rfl
  | ok source =>
    cases move.destination.meaning topology move.quoted line with
    | error error => rfl
    | ok destination => cases source <;> cases destination <;> rfl

/-! ## Outlines -/

namespace Outline

/-- The assembler that has read what an outline is of, and is at a line. -/
def assembler (topology : Topology) (line : Nat) (outline : Outline) : Assembler where
  topology
  instructions := (outline.entries.map (·.draft.instruction)).toArray
  fixups := (fixupsFrom 0 (outline.entries.map Entry.draft)).toArray
  labels := outline.labels
  line
  failure := none

variable {outline : Outline}

theorem assembler_holds :
    (outline.assembler topology line).Holds (outline.entries.map Entry.draft) := by
  constructor <;> simp [assembler]

theorem assembler_size : (outline.assembler topology line).size = outline.entries.length := by
  simp [assembler_holds.size_eq]

/-- What is built is what the second pass makes of an outline. -/
theorem assembler_build :
    (outline.assembler topology line).build =
      outline.entries.mapM (Entry.instruction outline.labels) := by
  have same : Draft.resolve outline.labels ∘ Entry.draft = Entry.instruction outline.labels :=
    funext (Entry.draft_resolve outline.labels)
  rw [assembler_holds.build_eq rfl, List.mapM_map]
  exact congrArg (outline.entries.mapM ·) same

theorem assembler_define (label : String) :
    (outline.assembler topology line).define label =
      (outline.define line label).map (assembler topology line) := by
  have reserved : isReserved label = true ↔
      label = "pc" ∨ label = "null" ∨ (MicroOp.ofToken? label).isSome = true := by
    simp [isReserved, or_assoc]
  simp only [Assembler.define, define, assembler_size, reserved]
  split
  · rfl
  · cases found : outline.labels.lookup label with
    | none => simp [assembler, found, Except.map]
    | some first => simp [assembler, found, Except.map]

theorem assembler_addMove (move : Move) :
    (outline.assembler topology line).addMove move.source.text move.destination.text =
      (outline.add topology line (.move move)).map (assembler topology line) := by
  have ofMove : Draft.ofMove (outline.assembler topology line).topology move.source.text
      move.destination.text (outline.assembler topology line).line =
        (move.entry topology line).map Entry.draft := move.ofMove_text
  simp only [Assembler.addMove, ofMove, add]
  cases move.entry topology line with
  | error error => rfl
  | ok entry =>
    simp only [Except.map, bind, Except.bind, pure, Except.pure, assembler_size]
    cases entry <;> simp [assembler, Entry.draft, fixupsFrom_append, Draft.fixup?]

/-- An assembler takes in a statement as the first pass adds it. -/
theorem assembler_accept (statement : Statement) :
    (outline.assembler topology line).accept statement.token =
      (outline.add topology line statement).map (assembler topology line) := by
  cases statement with
  | comment remark oneLine => rfl
  | label name beforeColon => exact assembler_define name.text
  | move parts => exact assembler_addMove parts

end Outline

/-! ## Programs -/

open Assembler (outcome outcome_takeIn_nil outcome_takeIn_cons assemble_eq_outcome)

theorem advance_assembler (outline : Outline) (gap : List Char) :
    (outline.assembler topology line).advance gap =
      outline.assembler topology (line + lineBreaks gap) := rfl

/-- An assembler goes through a program as the first pass does. -/
theorem outcome_takeIn_piecesOf (outline : Outline) (gap : List Char)
    (allBlank : ∀ char ∈ gap, isBlank char = true) (statements : List Statement) :
    outcome ((outline.assembler topology line).takeIn (piecesOf gap statements)) =
      (outline.addAll topology (line + lineBreaks gap) statements).map
        (Outline.assembler topology (line + lineBreaks gap + statements.length)) := by
  induction statements generalizing outline line gap with
  | nil => exact outcome_takeIn_nil allBlank
  | cons statement later ih =>
    rw [piecesOf, outcome_takeIn_cons allBlank, advance_assembler, Outline.assembler_accept,
      Outline.addAll]
    cases outline.add topology (line + lineBreaks gap) statement with
    | error error => rfl
    | ok next =>
      -- the line break behind the statement is the gap in front of the rest
      have rest : outcome ((next.assembler topology (line + lineBreaks gap)).takeIn
          (piecesOf ['\n'] later)) =
            (next.addAll topology (line + lineBreaks gap + 1) later).map
              (Outline.assembler topology (line + lineBreaks gap + 1 + later.length)) :=
        ih next ['\n'] (by simp [isBlank])
      have lines : line + lineBreaks gap + (later.length + 1) =
          line + lineBreaks gap + 1 + later.length := by omega
      simp only [Except.map, bind, Except.bind, advance_assembler, statement.lineBreaks_chars,
        Nat.add_zero, List.length_cons, lines]
      exact rest

end MoveMachine.Grammar
