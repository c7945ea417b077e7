import MoveMachine.Proofs.Assembly.Reading
import Mathlib.Data.List.Induction

/-!
# Where lexemes stand

A lexeme is spelled as its kind says (`Assembly.Spells`), and a text is its lexemes and the gaps
between them, so each of them has a place: the characters in front of it, in its own text and in
those that were read before (`Assembly.Place`). The line of a statement is one more than the
number of line breaks in front of it (`Assembly.statements_eq`), although the assembler never
counts them from the beginning.
-/

set_option autoImplicit false

namespace MoveMachine.Assembly

open Text

/-! ## Spelling -/

/-- Whether characters can be the source of a move. -/
inductive IsSource : List Char → Prop where
  | parenthesised {inner : List Char} (inside : ∀ char ∈ inner, isInnerChar char = true) :
      IsSource ('(' :: inner ++ [')'])
  | plain {run : List Char} (nonempty : run ≠ [])
      (inside : ∀ char ∈ run, isSourceChar char = true) : IsSource run

/-- How a lexeme is spelled: a comment stays on its line, a label is a word that does not begin with
a digit, with a colon behind it, and a move is two operands with an arrow between them. -/
inductive Spells : Token → List Char → Prop where
  | comment {remark : List Char} (oneLine : '\n' ∉ remark) : Spells .comment ('/' :: '/' :: remark)
  | label {first : Char} {word space : List Char} (starts : isLabelStart first = true)
      (continues : ∀ char ∈ word, isWordChar char = true)
      (blank : ∀ char ∈ space, char = ' ' ∨ char = '\t') :
      Spells (.label (String.ofList (first :: word))) (first :: word ++ space ++ [':'])
  | move {source beforeArrow afterArrow destination : List Char} (isSource : IsSource source)
      (blankBefore : ∀ char ∈ beforeArrow, isBlank char = true)
      (blankAfter : ∀ char ∈ afterArrow, isBlank char = true) (nonempty : destination ≠ [])
      (isDestination : ∀ char ∈ destination, isDestinationChar char = true) :
      Spells (.move (String.ofList source) (String.ofList destination))
        (source ++ beforeArrow ++ ['-', '>'] ++ afterArrow ++ destination)

variable {text : List Char} {lexeme : Lexeme}

theorem spells_of_comment? (found : comment? text = some lexeme) :
    Spells lexeme.token lexeme.text := by
  unfold comment? at found
  split at found
  · rename_i rest
    obtain rfl := Option.some.inj found
    refine .comment fun inside => ?_
    simpa using List.mem_takeWhile_imp inside
  · cases found

theorem spells_of_label? (found : label? text = some lexeme) :
    Spells lexeme.token lexeme.text := by
  unfold label? at found
  split at found
  · cases found
  · rename_i first rest
    split at found
    · rename_i starts
      simp only at found
      split at found
      · obtain rfl := Option.some.inj found
        refine .label starts (fun _ => List.mem_takeWhile_imp) fun char inside => ?_
        simpa [isLabelSpace] using List.mem_takeWhile_imp inside
      · cases found
    · cases found

theorem isSource_of_source? {source behind : List Char}
    (found : source? text = some (source, behind)) : IsSource source := by
  unfold source? at found
  split at found
  · split at found
    · obtain ⟨rfl, -⟩ := Prod.mk.inj (Option.some.inj found)
      exact .parenthesised fun _ => List.mem_takeWhile_imp
    · cases found
  · simp only at found
    split at found
    · cases found
    · rename_i nonempty
      obtain ⟨rfl, -⟩ := Prod.mk.inj (Option.some.inj found)
      exact .plain (by simpa using nonempty) fun _ => List.mem_takeWhile_imp

theorem isDestination_of_destination? {destination behind : List Char}
    (found : destination? text = some (destination, behind)) :
    destination ≠ [] ∧ ∀ char ∈ destination, isDestinationChar char = true := by
  unfold destination? at found
  simp only at found
  split at found
  · cases found
  · rename_i nonempty
    obtain ⟨rfl, -⟩ := Prod.mk.inj (Option.some.inj found)
    exact ⟨by simpa using nonempty, fun _ => List.mem_takeWhile_imp⟩

theorem spells_of_move? (found : move? text = some lexeme) : Spells lexeme.token lexeme.text := by
  unfold move? at found
  split at found
  · cases found
  · rename_i source behind isSource
    split at found
    · split at found
      · cases found
      · rename_i destination rest isDestination
        obtain rfl := Option.some.inj found
        obtain ⟨nonempty, inside⟩ := isDestination_of_destination? isDestination
        exact .move (isSource_of_source? isSource) (fun _ => List.mem_takeWhile_imp)
          (fun _ => List.mem_takeWhile_imp) nonempty inside
    · cases found

theorem spells_of_lexeme? (found : lexeme? text = some lexeme) :
    Spells lexeme.token lexeme.text := by
  rw [lexeme?, Option.or_eq_some_iff, Option.or_eq_some_iff] at found
  rcases found with isComment | ⟨-, isLabel | ⟨-, isMove⟩⟩
  · exact spells_of_comment? isComment
  · exact spells_of_label? isLabel
  · exact spells_of_move? isMove

theorem spells_of_piecesAfter (gap text : List Char) :
    ∀ piece ∈ (piecesAfter gap text).pieces, Spells piece.token piece.text := by
  fun_induction piecesAfter gap text with
  | case1 gap text lexeme found later ih =>
    exact List.forall_mem_cons.mpr ⟨spells_of_lexeme? found, ih⟩
  | case2 gap found =>
    intro piece member
    cases member
  | case3 gap char rest found ih => exact ih

/-- Whether a text is nothing but comments, definitions of labels and moves, with blanks between
them. -/
structure Covered (text : List Char) : Prop where
  whole : (pieces text).text = text
  clean : (pieces text).Clean
  spelled : ∀ piece ∈ (pieces text).pieces, Spells piece.token piece.text

theorem covered_of_clean (clean : (pieces text).Clean) : Covered text :=
  ⟨text_pieces text, clean, spells_of_piecesAfter [] text⟩

/-! ## Places -/

/-- The line that something begins on, given all the characters in front of it. -/
def lineBehind (front : List Char) : Nat := 1 + lineBreaks front

theorem lineBehind_append (front gap : List Char) :
    lineBehind (front ++ gap) = lineBehind front + lineBreaks gap := by
  rw [lineBehind, lineBreaks_append, ← Nat.add_assoc]
  rfl

/-- The characters of texts that are read one after the other. -/
def charsOf (texts : List String) : List Char := texts.flatMap String.toList

/-- The characters of lexemes with the gaps in front of them. -/
def charsOfPieces (parts : List Piece) : List Char :=
  parts.flatMap fun piece => piece.gap ++ piece.text

/-- A lexeme, with all the characters in front of it. -/
structure Place where
  front : List Char
  token : Token
  /-- The characters of the lexeme. -/
  text : List Char

/-- A lexeme as a statement on its line. -/
def Place.statement (place : Place) : Statement := ⟨place.token, lineBehind place.front⟩

/-- Lexemes in their places, when there are characters in front of the first gap. -/
def placePieces (front : List Char) : List Piece → List Place
  | [] => []
  | piece :: later =>
    ⟨front ++ piece.gap, piece.token, piece.text⟩ ::
      placePieces (front ++ (piece.gap ++ piece.text)) later

/-- The lexemes of a text in their places, behind the texts that were read before. -/
def placesIn (before : List String) (text : String) : List Place :=
  placePieces (charsOf before) (pieces text.toList).pieces

/-- The lexemes of texts in their places, when others were read before. -/
def placesBehind (before : List String) : List String → List Place
  | [] => []
  | text :: later => placesIn before text ++ placesBehind (before ++ [text]) later

/-- The lexemes of texts in their places. -/
def places (texts : List String) : List Place := placesBehind [] texts

variable {before later texts : List String} {front gap : List Char} {parts done : List Piece}
  {place : Place}

theorem charsOf_concat (before : List String) (text : String) :
    charsOf (before ++ [text]) = charsOf before ++ text.toList := by
  rw [charsOf, List.flatMap_append, List.flatMap_singleton]
  rfl

theorem charsOfPieces_append (done later : List Piece) :
    charsOfPieces (done ++ later) = charsOfPieces done ++ charsOfPieces later := List.flatMap_append

theorem placePieces_append (front : List Char) (done later : List Piece) :
    placePieces front (done ++ later) =
      placePieces front done ++ placePieces (front ++ charsOfPieces done) later := by
  induction done generalizing front with
  | nil => rw [charsOfPieces, List.flatMap_nil, List.append_nil]; rfl
  | cons piece done ih =>
    simp only [List.cons_append, placePieces, ih, charsOfPieces, List.flatMap_cons,
      List.append_assoc]

theorem placesBehind_concat (before texts : List String) (text : String) :
    placesBehind before (texts ++ [text]) =
      placesBehind before texts ++ placesIn (before ++ texts) text := by
  induction texts generalizing before with
  | nil => simp only [List.nil_append, placesBehind, List.append_nil]
  | cons first texts ih =>
    simp only [List.cons_append, placesBehind, ih, List.append_assoc, List.nil_append]

/-- The lexemes of one more text come behind those of the others. -/
theorem places_concat (texts : List String) (text : String) :
    places (texts ++ [text]) = places texts ++ placesIn texts text := by
  rw [places, placesBehind_concat, List.nil_append]
  rfl

/-- The statements of a text are its lexemes with the lines of their places. -/
theorem statementsOf_eq (front : List Char) (parts : List Piece) :
    statementsOf (lineBehind front) parts = (placePieces front parts).map Place.statement := by
  induction parts generalizing front with
  | nil => rfl
  | cons piece later ih =>
    rw [statementsOf, ← lineBehind_append, ← lineBehind_append, ih, placePieces, List.map_cons]
    rfl

theorem statementsBehind_eq (before texts : List String) :
    statements (lineBehind (charsOf before)) texts =
      (placesBehind before texts).map Place.statement := by
  induction texts generalizing before with
  | nil => rfl
  | cons text later ih =>
    rw [statements, statementsOf_eq, ← lineBehind_append, ← charsOf_concat, ih, placesBehind,
      List.map_append]
    rfl

/-- The statements of some texts are their lexemes with the lines of their places. -/
theorem statements_eq (texts : List String) :
    statements 1 texts = (places texts).map Place.statement := statementsBehind_eq [] texts

/-- Whether a lexeme stands in its place in a text, spelled as its kind says. -/
structure Place.Stands (place : Place) (text : List Char) : Prop where
  there : place.front ++ place.text <+: text
  spelled : Spells place.token place.text

theorem Place.Stands.mono {text whole : List Char} (stands : place.Stands text)
    (isPrefix : text <+: whole) : place.Stands whole :=
  ⟨stands.there.trans isPrefix, stands.spelled⟩

/-- Whether a lexeme ends before another begins. -/
def Place.Precedes (place other : Place) : Prop := place.front ++ place.text <+: other.front

theorem front_of_mem_placePieces (member : place ∈ placePieces front parts) :
    front <+: place.front := by
  induction parts generalizing front with
  | nil => cases member
  | cons piece later ih =>
    rcases List.mem_cons.mp member with rfl | isLater
    · exact List.prefix_append front piece.gap
    · exact (List.prefix_append front _).trans (ih isLater)

theorem stands_of_mem_placePieces (spelled : ∀ piece ∈ parts, Spells piece.token piece.text)
    (member : place ∈ placePieces front parts) : place.Stands (front ++ charsOfPieces parts) := by
  induction parts generalizing front with
  | nil => cases member
  | cons piece later ih =>
    obtain ⟨here, behind⟩ := List.forall_mem_cons.mp spelled
    rw [charsOfPieces, List.flatMap_cons, ← List.append_assoc]
    rcases List.mem_cons.mp member with rfl | isLater
    · refine ⟨?_, here⟩
      rw [← List.append_assoc]
      exact List.prefix_append _ _
    · exact ih behind isLater

theorem pairwise_placePieces (front : List Char) (parts : List Piece) :
    (placePieces front parts).Pairwise Place.Precedes := by
  induction parts generalizing front with
  | nil => exact .nil
  | cons piece later ih =>
    refine List.pairwise_cons.mpr ⟨fun place isLater => ?_, ih _⟩
    have behind := front_of_mem_placePieces isLater
    rwa [← List.append_assoc] at behind

/-- The lexemes of a text stand in it, behind the texts that were read before. -/
theorem stands_of_mem_placesIn {text : String} (member : place ∈ placesIn before text) :
    place.Stands (charsOf before ++ text.toList) := by
  have stands := stands_of_mem_placePieces (spells_of_piecesAfter [] text.toList) member
  refine stands.mono ((List.prefix_append_right_inj _).mpr ?_)
  exact ⟨(pieces text.toList).tail, text_pieces text.toList⟩

/-- The lexemes of some texts stand in them. -/
theorem stands_of_mem_places (member : place ∈ places texts) : place.Stands (charsOf texts) := by
  induction texts using List.reverseRecOn with
  | nil => cases member
  | append_singleton earlier text ih =>
    rw [places_concat, List.mem_append] at member
    rw [charsOf_concat]
    rcases member with isEarlier | inText
    · exact (ih isEarlier).mono (List.prefix_append _ _)
    · exact stands_of_mem_placesIn inText

/-- The lexemes of some texts are listed in the order in which they stand there. -/
theorem pairwise_places (texts : List String) : (places texts).Pairwise Place.Precedes := by
  induction texts using List.reverseRecOn with
  | nil => exact .nil
  | append_singleton earlier text ih =>
    rw [places_concat]
    refine List.pairwise_append.mpr ⟨ih, pairwise_placePieces _ _, ?_⟩
    intro place isEarlier other inText
    exact (stands_of_mem_places isEarlier).there.trans (front_of_mem_placePieces inText)

/-- Whether a text has a gap behind some characters, between two lexemes or at one of its ends. -/
inductive HasGap (text : List Char) : List Char → List Char → Prop where
  | before {done later : List Piece} {piece : Piece}
      (split : (pieces text).pieces = done ++ piece :: later) :
      HasGap text (charsOfPieces done) piece.gap
  | behind : HasGap text (charsOfPieces (pieces text).pieces) (pieces text).tail

theorem HasGap.there (hasGap : HasGap text front gap) : front ++ gap <+: text := by
  have whole : charsOfPieces (pieces text).pieces ++ (pieces text).tail = text := text_pieces text
  cases hasGap with
  | behind => exact ⟨[], by rw [List.append_nil, whole]⟩
  | @before done later piece split =>
    refine ⟨piece.text ++ charsOfPieces later ++ (pieces text).tail, ?_⟩
    rw [split, charsOfPieces_append] at whole
    simpa only [charsOfPieces, List.flatMap_cons, List.append_assoc] using whole

end MoveMachine.Assembly
