import MoveMachine.Text.Blank
import MoveMachine.Text.WordChar

/-!
# Lexemes of program texts

A program text is a sequence of lexemes with gaps between them (`pieces`). A
lexeme is a comment, the definition of a label, or a move; which of these starts
at a place is tried in this order. Where none does, the character belongs to the
gap in front of the next lexeme.

Every part of a lexeme is as long as its characters allow. Nothing is lost by
that: what has to follow a part never begins with a character of the part.

A text is exactly its gaps and lexemes put together (`text_pieces`).
-/

set_option autoImplicit false

namespace MoveMachine.Assembly

open Text

/-- What a lexeme means. -/
inductive Token where
  | comment
  /-- The definition of a label. -/
  | label (name : String)
  /-- A move, with its operands as they are spelled. -/
  | move (source destination : String)
deriving DecidableEq

/-- A lexeme at the front of a text. -/
structure Lexeme where
  token : Token
  /-- The characters of the lexeme. -/
  text : List Char
  /-- The text behind the lexeme. -/
  rest : List Char

/-- Whether a label can start with a character. -/
def isLabelStart (char : Char) : Bool := char.isAlpha || char == '_'

/-- Whether a character may stand between the name of a label and its colon. -/
def isLabelSpace (char : Char) : Bool := char == ' ' || char == '\t'

/-- Whether a character may stand in a source without parentheses. -/
def isSourceChar (char : Char) : Bool :=
  isWordChar char || char == '.' || char == '$' || char == '@'

/-- Whether a character may stand in a destination. -/
def isDestinationChar (char : Char) : Bool := isWordChar char || char == '.' || char == '@'

/-- Whether a character may stand between parentheses. -/
def isInnerChar (char : Char) : Bool := char != '(' && char != ')' && char != '\n'

/-! ## Single lexemes -/

/-- A comment runs from two slashes to the end of the line. -/
def comment? : List Char → Option Lexeme
  | '/' :: '/' :: rest =>
    some ⟨.comment, '/' :: '/' :: rest.takeWhile (· != '\n'), rest.dropWhile (· != '\n')⟩
  | _ => none

/-- A label is defined by its name and a colon. -/
def label? : List Char → Option Lexeme
  | [] => none
  | first :: rest =>
    if isLabelStart first then
      let name := first :: rest.takeWhile isWordChar
      let afterName := rest.dropWhile isWordChar
      match afterName.dropWhile isLabelSpace with
      | ':' :: rest =>
        some ⟨.label (String.ofList name), name ++ afterName.takeWhile isLabelSpace ++ [':'], rest⟩
      | _ => none
    else none

/-- The source of a move: parentheses with anything on the same line between them, or a run of
source characters; and the text behind it. -/
def source? : List Char → Option (List Char × List Char)
  | '(' :: rest =>
    match rest.dropWhile isInnerChar with
    | ')' :: after => some ('(' :: rest.takeWhile isInnerChar ++ [')'], after)
    | _ => none
  | text =>
    let source := text.takeWhile isSourceChar
    if source.isEmpty then none else some (source, text.dropWhile isSourceChar)

/-- The destination of a move and the text behind it. -/
def destination? (text : List Char) : Option (List Char × List Char) :=
  let destination := text.takeWhile isDestinationChar
  if destination.isEmpty then none else some (destination, text.dropWhile isDestinationChar)

/-- A move is a source and a destination with an arrow between them, around which blanks and line
breaks may stand. -/
def move? (text : List Char) : Option Lexeme :=
  match source? text with
  | none => none
  | some (source, afterSource) =>
    match afterSource.dropWhile isBlank with
    | '-' :: '>' :: afterArrow =>
      match destination? (afterArrow.dropWhile isBlank) with
      | none => none
      | some (destination, rest) =>
        some ⟨.move (String.ofList source) (String.ofList destination),
          source ++ afterSource.takeWhile isBlank ++ ['-', '>'] ++ afterArrow.takeWhile isBlank
            ++ destination, rest⟩
    | _ => none

/-- The lexeme that starts at the front of a text. -/
def lexeme? (text : List Char) : Option Lexeme :=
  (comment? text).or ((label? text).or (move? text))

/-! ## The parts of a text -/

/-- A part of a text in front of what follows it. -/
def Splits (text first rest : List Char) : Prop := text = first ++ rest ∧ first ≠ []

theorem comment?_splits {text : List Char} {lexeme : Lexeme} (found : comment? text = some lexeme) :
    Splits text lexeme.text lexeme.rest := by
  unfold comment? at found
  split at found
  · simp only [Option.some.injEq] at found
    subst found
    simp [Splits]
  · simp at found

theorem label?_splits {text : List Char} {lexeme : Lexeme} (found : label? text = some lexeme) :
    Splits text lexeme.text lexeme.rest := by
  unfold label? at found
  split at found
  · simp at found
  · rename_i first rest
    split at found
    · simp only at found
      split at found
      · rename_i after colon
        simp only [Option.some.injEq] at found
        subst found
        exact ⟨by simp [← colon], by simp⟩
      · simp at found
    · simp at found

theorem source?_splits {text source after : List Char} (found : source? text = some (source, after)) :
    Splits text source after := by
  unfold source? at found
  split at found
  · rename_i rest
    split at found
    · rename_i behind closing
      simp only [Option.some.injEq, Prod.mk.injEq] at found
      obtain ⟨rfl, rfl⟩ := found
      exact ⟨by simp [← closing], by simp⟩
    · simp at found
  · simp only at found
    split at found
    · simp at found
    · rename_i nonempty
      simp only [Option.some.injEq, Prod.mk.injEq] at found
      obtain ⟨rfl, rfl⟩ := found
      exact ⟨List.takeWhile_append_dropWhile.symm, by simpa using nonempty⟩

theorem destination?_splits {text destination after : List Char}
    (found : destination? text = some (destination, after)) : Splits text destination after := by
  unfold destination? at found
  simp only at found
  split at found
  · simp at found
  · rename_i nonempty
    simp only [Option.some.injEq, Prod.mk.injEq] at found
    obtain ⟨rfl, rfl⟩ := found
    exact ⟨List.takeWhile_append_dropWhile.symm, by simpa using nonempty⟩

theorem move?_splits {text : List Char} {lexeme : Lexeme} (found : move? text = some lexeme) :
    Splits text lexeme.text lexeme.rest := by
  unfold move? at found
  split at found
  · simp at found
  · rename_i source afterSource sourceFound
    split at found
    · rename_i afterArrow arrow
      split at found
      · simp at found
      · rename_i destination rest destinationFound
        simp only [Option.some.injEq] at found
        subst found
        obtain ⟨sourceText, sourceNonempty⟩ := source?_splits sourceFound
        obtain ⟨destinationText, _⟩ := destination?_splits destinationFound
        exact ⟨by simp [sourceText, ← arrow, ← destinationText], by simp [sourceNonempty]⟩
    · simp at found

/-- A lexeme and the text behind it make up the text, and the lexeme is not empty. -/
theorem lexeme?_splits {text : List Char} {lexeme : Lexeme} (found : lexeme? text = some lexeme) :
    Splits text lexeme.text lexeme.rest := by
  simp only [lexeme?, Option.or_eq_some_iff] at found
  rcases found with found | ⟨_, found | ⟨_, found⟩⟩
  · exact comment?_splits found
  · exact label?_splits found
  · exact move?_splits found

theorem Splits.rest_shorter {text first rest : List Char} (splits : Splits text first rest) :
    rest.length < text.length := by
  obtain ⟨rfl, nonempty⟩ := splits
  have := List.length_pos_iff.mpr nonempty
  simp
  omega

/-! ## Whole texts -/

/-- A lexeme of a text, with the gap in front of it. -/
structure Piece where
  gap : List Char
  token : Token
  /-- The characters of the lexeme. -/
  text : List Char

/-- A text taken apart. -/
structure Pieces where
  pieces : List Piece
  /-- What follows the last lexeme. -/
  tail : List Char

/-- Takes a text apart, given the characters already in the gap, last to first. -/
def piecesAfter (gap text : List Char) : Pieces :=
  match _found : lexeme? text with
  | some lexeme =>
    let later := piecesAfter [] lexeme.rest
    { later with pieces := ⟨gap.reverse, lexeme.token, lexeme.text⟩ :: later.pieces }
  | none =>
    match text with
    | [] => ⟨[], gap.reverse⟩
    | char :: rest => piecesAfter (char :: gap) rest
termination_by text.length
decreasing_by
  · exact (lexeme?_splits _found).rest_shorter
  · simp

/-- Takes a text apart into its lexemes and the gaps between them. -/
def pieces (text : List Char) : Pieces := piecesAfter [] text

/-- The characters of a text that was taken apart. -/
def Pieces.text (parts : Pieces) : List Char :=
  parts.pieces.flatMap (fun piece => piece.gap ++ piece.text) ++ parts.tail

theorem text_piecesAfter (gap text : List Char) :
    (piecesAfter gap text).text = gap.reverse ++ text := by
  fun_induction piecesAfter gap text with
  | case1 gap text lexeme found later ih =>
    simp only [Pieces.text, List.reverse_nil, List.nil_append] at ih
    rw [(lexeme?_splits found).1, ← ih]
    simp [Pieces.text, later]
  | case2 gap found => simp [Pieces.text]
  | case3 gap char rest found ih => simpa using ih

/-- A text consists of its gaps and lexemes, in order and without loss. -/
theorem text_pieces (text : List Char) : (pieces text).text = text := by
  simpa [pieces] using text_piecesAfter [] text

end MoveMachine.Assembly
