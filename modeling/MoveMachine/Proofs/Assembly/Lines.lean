import MoveMachine.Assembly
import Mathlib.Data.List.Basic
import Mathlib.Data.List.TakeWhile

/-!
# Lexemes and the ends of lines

No lexeme ends with a line break, and what stands in front of a line break is
decided without looking behind it, but for the source of a move whose arrow is on
a later line. So a text of whole lines that is taken apart without leaving
anything but blanks between its lexemes is taken apart in the same way when more
text follows (`pieces_append`).
-/

set_option autoImplicit false

namespace MoveMachine.Assembly

open Text

/-! ## Runs of characters -/

section Runs

variable {drop : Char → Bool} {text : List Char}

/-- A run of characters that ends inside a text ends there whatever follows. -/
theorem takeWhile_append_of_stop (stops : text.dropWhile drop ≠ []) (later : List Char) :
    (text ++ later).takeWhile drop = text.takeWhile drop := by
  have whole := congrArg List.length (List.takeWhile_append_dropWhile (p := drop) (l := text))
  have some := List.length_pos_iff.mpr stops
  rw [List.length_append] at whole
  rw [List.takeWhile_append, if_neg (by omega)]

theorem dropWhile_append_of_stop (stops : text.dropWhile drop ≠ []) (later : List Char) :
    (text ++ later).dropWhile drop = text.dropWhile drop ++ later := by
  rw [List.dropWhile_append, if_neg (by simpa using stops)]

end Runs

/-- Whether a text ends with a line break. -/
def EndsLine (text : List Char) : Prop := text.getLast? = some '\n'

variable {text rest : List Char} {drop : Char → Bool}

/-- A part at the end of a text ends as the text does. -/
theorem EndsLine.of_suffix (ends : EndsLine text) (isSuffix : rest <:+ text) (some : rest ≠ []) :
    EndsLine rest := by
  obtain ⟨front, rfl⟩ := isSuffix
  rw [EndsLine, List.getLast?_append_of_ne_nil _ some] at ends
  exact ends

theorem EndsLine.tail {first : Char} (ends : EndsLine (first :: rest)) (inside : first ≠ '\n') :
    EndsLine rest := by
  refine ends.of_suffix (List.suffix_cons first rest) ?_
  rintro rfl
  exact inside (Option.some.inj ends)

/-- A run of characters without line breaks ends in front of the last line break. -/
theorem EndsLine.dropWhile_ne_nil (ends : EndsLine text) (drop : Char → Bool)
    (stops : drop '\n' = false) : text.dropWhile drop ≠ [] := by
  intro dropped
  have all := List.dropWhile_eq_nil_iff.mp dropped '\n' (List.mem_of_getLast? ends)
  rw [stops] at all
  cases all

theorem EndsLine.dropWhile (ends : EndsLine text) (some : text.dropWhile drop ≠ []) :
    EndsLine (text.dropWhile drop) :=
  ends.of_suffix (List.dropWhile_suffix drop) some

/-! ## Lexemes -/

/-- What begins with anything but a slash is no comment. -/
theorem comment?_of_ne {first : Char} (noSlash : first ≠ '/') (rest : List Char) :
    comment? (first :: rest) = none := by
  rw [comment?]
  rintro behind ⟨rfl, -⟩
  exact noSlash rfl

/-- A lexeme with more text behind it. -/
def Lexeme.extend (lexeme : Lexeme) (later : List Char) : Lexeme :=
  { lexeme with rest := lexeme.rest ++ later }

theorem comment?_append (ends : EndsLine text) (later : List Char) :
    comment? (text ++ later) = (comment? text).map (·.extend later) := by
  cases text with
  | nil => cases ends
  | cons first rest =>
    cases rest with
    | nil =>
      obtain rfl := Option.some.inj ends
      rfl
    | cons second rest =>
      by_cases slashes : first = '/' ∧ second = '/'
      · obtain ⟨rfl, rfl⟩ := slashes
        have endsRest := (ends.tail (by decide)).tail (by decide)
        have stops := endsRest.dropWhile_ne_nil (· != '\n') rfl
        simp only [comment?, List.cons_append, Option.map_some, Lexeme.extend,
          takeWhile_append_of_stop stops, dropWhile_append_of_stop stops]
      · have noComment (behind : List Char) : comment? (first :: second :: behind) = none := by
          rw [comment?]
          rintro behind' ⟨rfl, rfl⟩
          exact slashes ⟨rfl, rfl⟩
        rw [noComment, List.cons_append, List.cons_append, noComment]
        rfl

theorem label?_append (ends : EndsLine text) (later : List Char) :
    label? (text ++ later) = (label? text).map (·.extend later) := by
  cases text with
  | nil => cases ends
  | cons first rest =>
    by_cases starts : isLabelStart first = true
    · have inside : first ≠ '\n' := by
        rintro rfl
        cases starts
      have endsRest := ends.tail inside
      have nameStops := endsRest.dropWhile_ne_nil isWordChar (by decide)
      have endsName := endsRest.dropWhile nameStops
      have spaceStops := endsName.dropWhile_ne_nil isLabelSpace rfl
      simp only [label?, List.cons_append, starts, if_true, takeWhile_append_of_stop nameStops,
        dropWhile_append_of_stop nameStops, takeWhile_append_of_stop spaceStops,
        dropWhile_append_of_stop spaceStops]
      cases behind : (rest.dropWhile isWordChar).dropWhile isLabelSpace with
      | nil => exact absurd behind spaceStops
      | cons next after =>
        by_cases colon : next = ':'
        · subst colon
          rfl
        · simp [colon]
    · simp [label?, starts]

/-- A source without parentheses is a run of source characters. -/
theorem source?_of_plain {first : Char} (plain : first ≠ '(') (rest : List Char) :
    source? (first :: rest) =
      if ((first :: rest).takeWhile isSourceChar).isEmpty then none
      else some
        ((first :: rest).takeWhile isSourceChar, (first :: rest).dropWhile isSourceChar) := by
  rw [source?]
  rintro behind ⟨rfl, rfl⟩
  exact plain rfl

theorem source?_append (ends : EndsLine text) (later : List Char) :
    source? (text ++ later) =
      (source? text).map fun (source, behind) => (source, behind ++ later) := by
  cases text with
  | nil => cases ends
  | cons first rest =>
    by_cases opens : first = '('
    · subst opens
      have endsRest := ends.tail (by decide)
      have stops := endsRest.dropWhile_ne_nil isInnerChar rfl
      simp only [source?, List.cons_append, takeWhile_append_of_stop stops,
        dropWhile_append_of_stop stops]
      cases behind : rest.dropWhile isInnerChar with
      | nil => exact absurd behind stops
      | cons next after =>
        by_cases closes : next = ')'
        · subst closes
          rfl
        · simp [closes]
    · have stops := ends.dropWhile_ne_nil isSourceChar (by decide)
      have run := takeWhile_append_of_stop stops later
      have behind := dropWhile_append_of_stop stops later
      rw [List.cons_append] at run behind ⊢
      rw [source?_of_plain opens, source?_of_plain opens, run, behind]
      split <;> rfl

/-- A destination that begins inside a text ends inside it. -/
theorem destination?_append (ends : EndsLine text) (later : List Char) :
    destination? (text ++ later) =
      (destination? text).map fun (destination, behind) => (destination, behind ++ later) := by
  have stops := ends.dropWhile_ne_nil isDestinationChar (by decide)
  simp only [destination?, takeWhile_append_of_stop stops, dropWhile_append_of_stop stops]
  split <;> rfl

/-- A move that ends inside a text is a move whatever follows. -/
theorem move?_append {lexeme : Lexeme} (ends : EndsLine text) (later : List Char)
    (found : move? text = some lexeme) : move? (text ++ later) = some (lexeme.extend later) := by
  rw [move?] at found ⊢
  rw [source?_append ends]
  cases isSource : source? text with
  | none => simp [isSource] at found
  | some parts =>
    obtain ⟨source, behind⟩ := parts
    simp only [isSource, Option.map_some] at found ⊢
    split at found
    · rename_i afterArrow arrow
      have stops : behind.dropWhile isBlank ≠ [] := by simp [arrow]
      rw [dropWhile_append_of_stop stops, takeWhile_append_of_stop stops, arrow]
      have endsBehind : EndsLine behind :=
        ends.of_suffix ⟨source, (source?_splits isSource).1.symm⟩ fun nothing => by
          simp [nothing] at stops
      have endsArrow : EndsLine afterArrow := by
        have inside := endsBehind.dropWhile stops
        rw [arrow] at inside
        exact (inside.tail (by decide)).tail (by decide)
      simp only [List.cons_append]
      cases isDestination : destination? (afterArrow.dropWhile isBlank) with
      | none => simp [isDestination] at found
      | some parts =>
        obtain ⟨destination, rest⟩ := parts
        have stopsArrow : afterArrow.dropWhile isBlank ≠ [] := by
          obtain ⟨split, some⟩ := destination?_splits isDestination
          simp [split, some]
        simp only [isDestination, Option.some.injEq] at found
        subst found
        simp only [dropWhile_append_of_stop stopsArrow, takeWhile_append_of_stop stopsArrow,
          destination?_append (endsArrow.dropWhile stopsArrow), isDestination, Option.map_some]
        rfl
    · cases found

/-- A lexeme that is found in a text of whole lines is found there whatever follows. -/
theorem lexeme?_append {lexeme : Lexeme} (ends : EndsLine text) (later : List Char)
    (found : lexeme? text = some lexeme) :
    lexeme? (text ++ later) = some (lexeme.extend later) := by
  rw [lexeme?] at found ⊢
  rw [comment?_append ends, label?_append ends]
  cases isComment : comment? text with
  | some comment =>
    simp only [isComment, Option.some_or, Option.some.injEq] at found
    subst found
    rfl
  | none =>
    cases isLabel : label? text with
    | some label =>
      simp only [isComment, isLabel, Option.none_or, Option.some_or, Option.some.injEq] at found
      subst found
      rfl
    | none =>
      simp only [isComment, isLabel, Option.none_or] at found
      rw [move?_append ends later found]
      rfl

/-! ## Blanks -/

/-- The codes of the blank characters. -/
def blankCodes : List Nat :=
  [9, 10, 11, 12, 13, 0x20, 0x85, 0xA0, 0x1680, 0x2000, 0x2001, 0x2002, 0x2003, 0x2004, 0x2005,
    0x2006, 0x2007, 0x2008, 0x2009, 0x200A, 0x2028, 0x2029, 0x202F, 0x205F, 0x3000]

theorem toNat_mem_blankCodes {char : Char} (blank : isBlank char = true) :
    char.toNat ∈ blankCodes := by
  simp only [isBlank, Bool.or_eq_true, Bool.and_eq_true, decide_eq_true_eq, beq_iff_eq] at blank
  simp only [blankCodes, List.mem_cons, List.not_mem_nil, or_false]
  omega

/-- A blank is none of the characters that a lexeme can begin with. -/
theorem starts_nothing_of_blank {first : Char} (blank : isBlank first = true) :
    first ≠ '/' ∧ first ≠ '(' ∧ isLabelStart first = false ∧ isSourceChar first = false := by
  have none : ∀ code ∈ blankCodes, Char.ofNat code ≠ '/' ∧ Char.ofNat code ≠ '(' ∧
      isLabelStart (Char.ofNat code) = false ∧ isSourceChar (Char.ofNat code) = false := by
    decide +kernel
  have isNone := none _ (toNat_mem_blankCodes blank)
  rwa [Char.ofNat_toNat] at isNone

/-- No lexeme begins with a blank. -/
theorem lexeme?_of_blank {first : Char} (blank : isBlank first = true) (rest : List Char) :
    lexeme? (first :: rest) = none := by
  obtain ⟨noSlash, noParenthesis, noLabel, noSource⟩ := starts_nothing_of_blank blank
  simp [lexeme?, comment?_of_ne noSlash, label?, noLabel, move?, source?_of_plain noParenthesis,
    noSource]

/-! ## Parts of a text -/

theorem piecesAfter_of_some {lexeme : Lexeme} (gap : List Char)
    (found : lexeme? text = some lexeme) :
    piecesAfter gap text =
      ⟨⟨gap.reverse, lexeme.token, lexeme.text⟩ :: (pieces lexeme.rest).pieces,
        (pieces lexeme.rest).tail⟩ := by
  rw [piecesAfter, pieces]
  split
  · rename_i other isOther
    obtain rfl := Option.some.inj (found.symm.trans isOther)
    rfl
  · rename_i nothing
    rw [found] at nothing
    cases nothing

theorem piecesAfter_of_none {char : Char} (gap : List Char)
    (nothing : lexeme? (char :: rest) = none) :
    piecesAfter gap (char :: rest) = piecesAfter (char :: gap) rest := by
  rw [piecesAfter]
  split
  · rename_i lexeme found
    rw [nothing] at found
    cases found
  · rfl

theorem piecesAfter_nil (gap : List Char) : piecesAfter gap [] = ⟨[], gap.reverse⟩ := by
  rw [piecesAfter]
  rfl

namespace Pieces

variable {gap : List Char} {parts : Pieces}

/-- A text that was taken apart, with more in front of it that belongs to the first gap. -/
def precede (gap : List Char) (parts : Pieces) : Pieces :=
  match parts.pieces with
  | [] => { parts with tail := gap ++ parts.tail }
  | piece :: later => { parts with pieces := { piece with gap := gap ++ piece.gap } :: later }

/-- Two texts that were taken apart, one behind the other. -/
def append (first second : Pieces) : Pieces :=
  { second.precede first.tail with
    pieces := first.pieces ++ (second.precede first.tail).pieces }

/-- Whether there is nothing but blanks between the lexemes of a text. -/
structure Clean (parts : Pieces) : Prop where
  gaps : ∀ piece ∈ parts.pieces, ∀ char ∈ piece.gap, isBlank char = true
  tail : ∀ char ∈ parts.tail, isBlank char = true

/-- What is in front of a clean text is blank. -/
theorem Clean.blank_of_precede (clean : (parts.precede gap).Clean) :
    ∀ char ∈ gap, isBlank char = true := by
  intro char member
  obtain ⟨pieces, tail⟩ := parts
  cases pieces with
  | nil => exact clean.tail char (List.mem_append_left _ member)
  | cons piece later => exact clean.gaps _ List.mem_cons_self char (List.mem_append_left _ member)

end Pieces

/-- Characters that are in the gap already stand in front of everything else. -/
theorem piecesAfter_eq_precede (gap text : List Char) :
    piecesAfter gap text = (pieces text).precede gap.reverse := by
  suffices general : ∀ before, piecesAfter (before ++ gap) text =
      (piecesAfter before text).precede gap.reverse from general []
  intro before
  fun_induction piecesAfter before text with
  | case1 before text lexeme found later ih =>
    rw [piecesAfter_of_some _ found]
    simp [Pieces.precede, later, pieces]
  | case2 before found => simp [piecesAfter_nil, Pieces.precede]
  | case3 before char rest found ih =>
    rw [piecesAfter_of_none _ found]
    exact ih

theorem piecesAfter_append (gap text later : List Char) (whole : text = [] ∨ EndsLine text)
    (clean : (piecesAfter gap text).Clean) :
    piecesAfter gap (text ++ later) = (piecesAfter gap text).append (pieces later) := by
  fun_induction piecesAfter gap text with
  | case1 gap text lexeme found behind ih =>
    have ends : EndsLine text := by
      rcases whole with rfl | ends
      · cases found
      · exact ends
    have wholeBehind : lexeme.rest = [] ∨ EndsLine lexeme.rest := by
      by_cases nothing : lexeme.rest = []
      · exact .inl nothing
      · exact .inr (ends.of_suffix ⟨lexeme.text, (lexeme?_splits found).1.symm⟩ nothing)
    have rest := ih wholeBehind
      ⟨fun piece member => clean.gaps piece (List.mem_cons_of_mem _ member), clean.tail⟩
    rw [piecesAfter_of_some _ (lexeme?_append ends later found)]
    simp only [Lexeme.extend, pieces, rest]
    rfl
  | case2 gap found =>
    rw [List.nil_append, piecesAfter_eq_precede]
    rfl
  | case3 gap char rest found ih =>
    rw [piecesAfter_eq_precede] at clean
    have blank := clean.blank_of_precede char (by simp)
    rw [List.cons_append, piecesAfter_of_none _ (lexeme?_of_blank blank _)]
    refine ih ?_ (piecesAfter_eq_precede (char :: gap) rest ▸ clean)
    by_cases nothing : rest = []
    · exact .inl nothing
    · have ends := whole.resolve_left (List.cons_ne_nil char rest)
      exact .inr (ends.of_suffix (List.suffix_cons char rest) nothing)

/-- A clean text of whole lines and what follows it are taken apart each by itself. -/
theorem pieces_append (text later : List Char) (whole : text = [] ∨ EndsLine text)
    (clean : (pieces text).Clean) : pieces (text ++ later) = (pieces text).append (pieces later) :=
  piecesAfter_append [] text later whole clean

end MoveMachine.Assembly
