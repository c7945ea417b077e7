import MoveMachine.Proofs.Assembly.Lines
import MoveMachine.Proofs.Assembly.Statements

/-!
# Reading piece by piece

Once a text has been taken apart, its pieces are read one after the other
(`Assembler.takeIn`), and the first error ends the reading. If there is none, there was
nothing but blanks between the lexemes of the text (`Assembler.takeIn_eq_ok`).
-/

set_option autoImplicit false

namespace MoveMachine

open Assembly Text

namespace Assembly

variable {gap blank : List Char} {line : Nat}

/-! ## Gaps -/

theorem trimLeft_append (allBlank : ∀ char ∈ blank, isBlank char = true) (gap : List Char) :
    trimLeft (blank ++ gap) = trimLeft gap :=
  List.dropWhile_append_of_pos allBlank

/-- What begins behind a text of blanks is found at its line. -/
theorem checkGap_append (allBlank : ∀ char ∈ blank, isBlank char = true) (gap : List Char)
    (line : Nat) : checkGap (blank ++ gap) line = checkGap gap (line + lineBreaks blank) := by
  simp only [checkGap, trim, trimLeft_append allBlank, List.takeWhile_append_of_pos allBlank,
    lineBreaks_append, Nat.add_assoc]

theorem checkGap_of_blank (allBlank : ∀ char ∈ gap, isBlank char = true) (line : Nat) :
    checkGap gap line = .ok () := by
  rw [← List.append_nil gap, checkGap_append allBlank]
  rfl

/-- A gap that is accepted is blank. -/
theorem blank_of_checkGap (checked : checkGap gap line = .ok ()) :
    ∀ char ∈ gap, isBlank char = true := by
  rw [checkGap] at checked
  simp only at checked
  split at checked
  · rename_i trimmed
    have nothingLeft := List.dropWhile_eq_nil_iff.mp
      (List.reverse_eq_nil_iff.mp (List.isEmpty_iff.mp trimmed))
    intro char member
    rw [← List.takeWhile_append_dropWhile (p := isBlank) (l := gap)] at member
    rcases List.mem_append.mp member with front | behind
    · exact List.mem_takeWhile_imp front
    · exact nothingLeft char (List.mem_reverse.mpr behind)
  · cases checked

end Assembly

namespace Assembler

variable {assembler first taken : Assembler}

/-! ## Taking in the parts of a text -/

/-- Taking in a text that was taken apart. -/
def takeIn (assembler : Assembler) (parts : Pieces) : Assembler × Except Error Unit :=
  match assembler.acceptPieces parts.pieces with
  | (accepted, .error error) => (accepted, .error error)
  | (accepted, .ok ()) => (accepted.advance parts.tail, checkGap parts.tail accepted.line)

theorem scan_eq_takeIn (assembler : Assembler) (text : List Char) :
    assembler.scan text = assembler.takeIn (pieces text) := rfl

/-- Pieces that are taken in without an error come before those behind them. -/
theorem acceptPieces_append {done : List Piece} (later : List Piece)
    (accepts : assembler.acceptPieces done = (taken, .ok ())) :
    assembler.acceptPieces (done ++ later) = taken.acceptPieces later := by
  induction done generalizing assembler with
  | nil =>
    obtain rfl := (Prod.mk.inj accepts).1
    rfl
  | cons piece done ih =>
    obtain ⟨checked, accepted, took, acceptsRest⟩ := acceptPieces_cons_eq_ok accepts
    rw [List.cons_append, acceptPieces]
    simp only [checked, took]
    exact ih acceptsRest

/-- Pieces that are taken in without an error have nothing but blanks in front of them. -/
theorem blank_of_acceptPieces {parts : List Piece}
    (accepts : assembler.acceptPieces parts = (taken, .ok ())) :
    ∀ piece ∈ parts, ∀ char ∈ piece.gap, isBlank char = true := by
  induction parts generalizing assembler with
  | nil => exact nofun
  | cons piece later ih =>
    obtain ⟨checked, accepted, -, acceptsLater⟩ := acceptPieces_cons_eq_ok accepts
    exact List.forall_mem_cons.mpr ⟨blank_of_checkGap checked, ih acceptsLater⟩

/-- A text that is read without an error is taken in piece by piece, and is clean. -/
theorem takeIn_eq_ok {parts : Pieces} (reads : assembler.takeIn parts = (first, .ok ())) :
    parts.Clean ∧ ∃ taken, assembler.acceptPieces parts.pieces = (taken, .ok ()) ∧
      first = taken.advance parts.tail := by
  rw [takeIn] at reads
  cases took : assembler.acceptPieces parts.pieces with
  | mk taken result =>
    cases result with
    | error error => simp [took] at reads
    | ok =>
      simp only [took, Prod.mk.injEq] at reads
      obtain ⟨rfl, checked⟩ := reads
      exact ⟨⟨blank_of_acceptPieces took, blank_of_checkGap checked⟩, taken, rfl, rfl⟩

/-! ## What is left of a reading -/

/-- The assembler that a reading leaves, if there was no error. -/
def outcome (reading : Assembler × Except Error Unit) : Except Error Assembler :=
  reading.2.map fun _ => reading.1

theorem outcome_takeIn_nil {gap : List Char} (allBlank : ∀ char ∈ gap, isBlank char = true) :
    outcome (assembler.takeIn ⟨[], gap⟩) = .ok (assembler.advance gap) := by
  simp [outcome, takeIn, acceptPieces, checkGap_of_blank allBlank, Except.map]

/-- A lexeme behind blanks is taken in before the rest is looked at. -/
theorem outcome_takeIn_cons {piece : Piece} {later : List Piece} {tail : List Char}
    (allBlank : ∀ char ∈ piece.gap, isBlank char = true) :
    outcome (assembler.takeIn ⟨piece :: later, tail⟩) = (do
      let accepted ← (assembler.advance piece.gap).accept piece.token
      outcome ((accepted.advance piece.text).takeIn ⟨later, tail⟩)) := by
  simp only [takeIn, acceptPieces, checkGap_of_blank allBlank]
  cases (assembler.advance piece.gap).accept piece.token <;> rfl

/-- A single text is read by a new assembler, and then the program is built. -/
theorem assemble_eq_outcome (topology : Topology) (text : String) :
    assemble topology text = (do
      let assembler ← outcome ((empty topology).takeIn (pieces text.toList))
      assembler.build) := by
  rw [← scan_eq_takeIn, assemble, parse]
  rcases (empty topology).scan text.toList with ⟨scanned, result⟩
  cases result <;> rfl

end Assembler
end MoveMachine
