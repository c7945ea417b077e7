import MoveMachine.Proofs.Assembly.Reading
import MoveMachine.Proofs.Machine.Session

/-!
# Texts may be split at line ends

A text of whole lines that is read without an error leaves nothing behind that the
next text could change: no lexeme reaches over its end, and all that is left is
blank. So it makes no difference whether more text follows in the same call or in
the next one (`Assembler.splitting_unobservable`). After an error, the two
assemblers may be at different lines; nothing shows it.
-/

set_option autoImplicit false

namespace MoveMachine

open Assembly Text

namespace Assembler

variable {assembler other first : Assembler} {blank : List Char}

/-! ## Agreement -/

/-- Whether two readings come to the same: without an error to the same assembler, and with one to
assemblers of the same size. -/
structure Agree (reading other : Assembler × Except Error Unit) : Prop where
  result : reading.2 = other.2
  state : reading.2 = .ok () → reading.1 = other.1
  size : reading.1.size = other.1.size

theorem Agree.refl (reading : Assembler × Except Error Unit) : Agree reading reading :=
  ⟨rfl, fun _ => rfl, rfl⟩

/-- Blanks may be passed before the pieces of a text or with the first of them. -/
theorem takeIn_precede (allBlank : ∀ char ∈ blank, isBlank char = true) (parts : Pieces) :
    Agree ((assembler.advance blank).takeIn parts) (assembler.takeIn (parts.precede blank)) := by
  obtain ⟨pieces, tail⟩ := parts
  cases pieces with
  | nil =>
    simp only [takeIn, Pieces.precede, acceptPieces, advance_append, checkGap_append allBlank]
    exact .refl _
  | cons piece later =>
    have checks : checkGap (blank ++ piece.gap) assembler.line =
        checkGap piece.gap (assembler.advance blank).line := checkGap_append allBlank _ _
    simp only [takeIn, Pieces.precede, acceptPieces, checks, advance_append]
    cases checkGap piece.gap (assembler.advance blank).line with
    | error error =>
      refine ⟨rfl, fun succeeds => ?_, rfl⟩
      cases succeeds
    | ok => exact .refl _

/-- What follows a text of whole lines may be read with it. -/
theorem scan_append {text : List Char} (lines : text = [] ∨ EndsLine text)
    (reads : assembler.scan text = (first, .ok ())) (later : List Char) :
    Agree (first.scan later) (assembler.scan (text ++ later)) := by
  rw [scan_eq_takeIn] at reads
  obtain ⟨clean, taken, took, rfl⟩ := takeIn_eq_ok reads
  have behind : assembler.takeIn ((pieces text).append (pieces later)) =
      taken.takeIn ((pieces later).precede (pieces text).tail) := by
    simp only [takeIn, Pieces.append, acceptPieces_append _ took]
  rw [scan_eq_takeIn, scan_eq_takeIn, pieces_append text later lines clean, behind]
  exact takeIn_precede clean.tail (pieces later)

/-! ## What can be seen -/

/-- Whether nothing tells two assemblers apart: they are the same, or they have failed alike. -/
def Alike (assembler other : Assembler) : Prop :=
  assembler = other ∨ assembler.size = other.size ∧
    ∃ error, assembler.failure = some error ∧ other.failure = some error

theorem Alike.size_eq (alike : Alike assembler other) : assembler.size = other.size := by
  rcases alike with rfl | ⟨same, -⟩
  · rfl
  · exact same

theorem Alike.build_eq (alike : Alike assembler other) : assembler.build = other.build := by
  rcases alike with rfl | ⟨-, error, failed, failedOther⟩
  · rfl
  · rw [build, build, failed, failedOther]

/-- Whatever alike assemblers read, they answer the same and stay alike. -/
theorem Alike.parseAll (alike : Alike assembler other) (texts : List String) :
    (assembler.parseAll texts).2 = (other.parseAll texts).2 ∧
      Alike (assembler.parseAll texts).1 (other.parseAll texts).1 := by
  rcases alike with rfl | ⟨same, error, failed, failedOther⟩
  · exact ⟨rfl, .inl rfl⟩
  · rw [parseAll_of_failure failed, parseAll_of_failure failedOther]
    exact ⟨rfl, .inr ⟨same, error, failed, failedOther⟩⟩

/-- Parses that agree have the same result and leave alike assemblers. -/
theorem Agree.parse {text textOther : String} (unfailed : assembler.failure = none)
    (unfailedOther : other.failure = none)
    (agree : Agree (assembler.scan text.toList) (other.scan textOther.toList)) :
    (assembler.parse text).2 = (other.parse textOther).2 ∧
      Alike (assembler.parse text).1 (other.parse textOther).1 := by
  rw [Assembler.parse, Assembler.parse, unfailed, unfailedOther]
  generalize assembler.scan text.toList = reading at agree
  generalize other.scan textOther.toList = readingOther at agree
  obtain ⟨scanned, result⟩ := reading
  obtain ⟨scannedOther, resultOther⟩ := readingOther
  obtain rfl : result = resultOther := agree.result
  cases result with
  | ok =>
    obtain rfl : scanned = scannedOther := agree.state rfl
    exact ⟨rfl, .inl rfl⟩
  | error error => exact ⟨rfl, .inr ⟨agree.size, error, rfl, rfl⟩⟩

/-- Splitting a text at the end of a line makes no difference, if what is in front is read without
an error: reading the rest in another call or in the same one has the same result, and what can be
seen of the assembler afterwards is the same, also after any further texts. -/
theorem splitting_unobservable {assembler first second whole : Assembler} {text later : String}
    {result resultWhole : Except Error Unit} (unfailed : assembler.failure = none)
    (lines : text.toList = [] ∨ EndsLine text.toList)
    (reads : assembler.parse text = (first, .ok ()))
    (readsLater : first.parse later = (second, result))
    (readsWhole : assembler.parse (text ++ later) = (whole, resultWhole)) :
    result = resultWhole ∧ second.size = whole.size ∧ second.build = whole.build ∧
      ∀ further, (second.parseAll further).2 = (whole.parseAll further).2 ∧
        (second.parseAll further).1.size = (whole.parseAll further).1.size ∧
        (second.parseAll further).1.build = (whole.parseAll further).1.build := by
  have scans := (parse_eq_ok_iff unfailed).mp reads
  have unfailedFirst : first.failure = none := (keeps_scan scans).failure.trans unfailed
  have agree := scan_append lines scans later.toList
  rw [← String.toList_append] at agree
  obtain ⟨same, alike⟩ := agree.parse unfailedFirst unfailed
  rw [readsLater, readsWhole] at same alike
  refine ⟨same, alike.size_eq, alike.build_eq, fun further => ?_⟩
  obtain ⟨results, alikeAfter⟩ := alike.parseAll further
  exact ⟨results, alikeAfter.size_eq, alikeAfter.build_eq⟩

theorem relay_splitting_unobservable :
    ∃ first second whole : Assembler,
      (empty (.relay ⟨1, by decide, by decide⟩)).parse "end:\n" = (first, .ok ()) ∧
      first.parse "$1 -> pc\nend:" = (second, .error (.duplicateLabel "end" 3 1)) ∧
      (empty (.relay ⟨1, by decide, by decide⟩)).parse ("end:\n" ++ "$1 -> pc\nend:") =
        (whole, .error (.duplicateLabel "end" 3 1)) ∧
      second.size = whole.size ∧ second.build = whole.build := by
  let start := empty (.relay ⟨1, by decide, by decide⟩)
  have succeeds : (start.parse "end:\n").2 = .ok () := by decide +kernel
  have fails : ((start.parse "end:\n").1.parse "$1 -> pc\nend:").2 =
      .error (.duplicateLabel "end" 3 1) := by
    decide +kernel
  have reads : start.parse "end:\n" = ((start.parse "end:\n").1, .ok ()) := Prod.ext rfl succeeds
  have readsLater : (start.parse "end:\n").1.parse "$1 -> pc\nend:" =
      (((start.parse "end:\n").1.parse "$1 -> pc\nend:").1, .error (.duplicateLabel "end" 3 1)) :=
    Prod.ext rfl fails
  have lines : EndsLine "end:\n".toList := rfl
  obtain ⟨same, size, build, -⟩ := splitting_unobservable rfl (.inr lines) reads readsLater rfl
  exact ⟨_, _, _, reads, readsLater, Prod.ext rfl same.symm, size, build⟩

end Assembler
end MoveMachine
