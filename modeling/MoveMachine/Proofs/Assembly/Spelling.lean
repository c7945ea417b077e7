import MoveMachine.Proofs.Assembly.Grammar
import MoveMachine.Proofs.Assembly.Lines

/-!
# Statements are lexemes

A statement in front of a line break is a lexeme (`Statement.lexeme?_append`): what
comes first in it is taken for nothing else, and each of its parts ends where the next
one begins, since that begins with a character that the part cannot have. So a program
is taken apart into its statements, with nothing but line breaks between them
(`pieces_chars`).
-/

set_option autoImplicit false

namespace MoveMachine

open Assembly Text

namespace Grammar

/-! ## Characters -/

section Characters

variable {char : Char}

/-- An ASCII word character is none of the others. -/
theorem ne_of_ascii (ascii : isAsciiWordChar char = true) (other : Char)
    (outside : isAsciiWordChar other = false) : char ≠ other := by
  rintro rfl
  rw [ascii] at outside
  cases outside

theorem isDestinationChar_of_ascii (ascii : isAsciiWordChar char = true) :
    isDestinationChar char = true := by
  simp [isDestinationChar, isWordChar_of_isAsciiWordChar ascii]

theorem isSourceChar_of_isDestinationChar (inside : isDestinationChar char = true) :
    isSourceChar char = true := by
  simp only [isDestinationChar, isSourceChar, Bool.or_eq_true] at inside ⊢
  tauto

theorem isSourceChar_of_ascii (ascii : isAsciiWordChar char = true) : isSourceChar char = true :=
  isSourceChar_of_isDestinationChar (isDestinationChar_of_ascii ascii)

theorem isBlank_of_isSourceChar (inside : isSourceChar char = true) : isBlank char = false := by
  by_contra blank
  have outside := (starts_nothing_of_blank (by simpa using blank)).2.2.2
  rw [inside] at outside
  cases outside

theorem isInnerChar_of_ascii (ascii : isAsciiWordChar char = true) : isInnerChar char = true := by
  simp [isInnerChar, ne_of_ascii ascii '(' rfl, ne_of_ascii ascii ')' rfl,
    ne_of_ascii ascii '\n' rfl]

theorem ascii_of_isDigit (digit : char.isDigit = true) : isAsciiWordChar char = true := by
  simp [isAsciiWordChar, Char.isAlphanum, digit]

end Characters

/-! ## Runs of characters -/

section Runs

variable {run : Char → Bool} {word rest : List Char}

/-- Whether a run of certain characters ends in front of a text. -/
def Stops (run : Char → Bool) (text : List Char) : Prop := ∀ char ∈ text.head?, run char = false

theorem stops_cons {first : Char} (outside : run first = false) (rest : List Char) :
    Stops run (first :: rest) := by
  rintro char ⟨⟩
  exact outside

theorem stops_append (nonempty : word ≠ []) (outside : ∀ char ∈ word, run char = false)
    (rest : List Char) : Stops run (word ++ rest) := by
  cases word with
  | nil => exact absurd rfl nonempty
  | cons first later => exact stops_cons (outside first List.mem_cons_self) _

theorem takeWhile_run (inside : ∀ char ∈ word, run char = true) (stops : Stops run rest) :
    (word ++ rest).takeWhile run = word := by
  rw [List.takeWhile_append_of_pos inside]
  cases rest with
  | nil => simp
  | cons next rest => simp [stops next rfl]

theorem dropWhile_run (inside : ∀ char ∈ word, run char = true) (stops : Stops run rest) :
    (word ++ rest).dropWhile run = rest := by
  rw [List.dropWhile_append_of_pos inside]
  cases rest with
  | nil => rfl
  | cons next rest => simp [stops next rfl]

namespace Spacing

variable (spacing : Spacing)

theorem all (run : Char → Bool) (space : run ' ' = true) (tab : run '\t' = true) :
    ∀ char ∈ spacing.chars, run char = true := by
  intro char member
  rcases spacing.blank char member with rfl | rfl
  · exact space
  · exact tab

/-- A run that takes in no spacing ends in front of it. -/
theorem stops (space : run ' ' = false) (tab : run '\t' = false) (stops : Stops run rest) :
    Stops run (spacing.chars ++ rest) := by
  obtain ⟨chars, blank⟩ := spacing
  cases chars with
  | nil => exact stops
  | cons first later =>
    refine stops_cons ?_ _
    rcases blank first List.mem_cons_self with rfl | rfl
    · exact space
    · exact tab

end Spacing

theorem Spaced.all {Item : Type} {spell : Item → List Char} (spaced : Spaced Item)
    (space : run ' ' = true) (tab : run '\t' = true)
    (inside : ∀ char ∈ spell spaced.item, run char = true) :
    ∀ char ∈ spaced.chars spell, run char = true := by
  intro char member
  simp only [Spaced.chars, List.mem_append] at member
  rcases member with (inBefore | inItem) | inAfter
  · exact spaced.before.all run space tab char inBefore
  · exact inside char inItem
  · exact spaced.after.all run space tab char inAfter

end Runs

/-! ## The characters of operands -/

theorem Name.eq_cons (name : Name) :
    ∃ first rest, name.chars = first :: rest ∧ isAsciiWordChar first = true ∧
      ∀ char ∈ rest, isAsciiWordChar char = true := by
  obtain ⟨chars, nonempty, ascii⟩ := name
  cases chars with
  | nil => exact absurd rfl nonempty
  | cons first rest => exact ⟨first, rest, rfl, List.forall_mem_cons.mp ascii⟩

theorem Identifier.eq_cons (name : Identifier) :
    ∃ first rest, name.chars = first :: rest ∧ isLabelStart first = true ∧
      ∀ char ∈ rest, isAsciiWordChar char = true := by
  obtain ⟨first, rest, split, asciiFirst, asciiRest⟩ := name.toName.eq_cons
  have noDigit : first.isDigit = false := name.noDigit first (by rw [split]; rfl)
  refine ⟨first, rest, split, ?_, asciiRest⟩
  simpa [isAsciiWordChar, Char.isAlphanum, noDigit, isLabelStart] using asciiFirst

theorem Numeral.isDigit {bound : Nat} (numeral : Numeral bound) :
    ∀ char ∈ numeral.chars, char.isDigit = true := by
  intro char member
  rcases List.mem_append.mp member with zero | digit
  · obtain ⟨-, rfl⟩ := List.mem_replicate.mp zero
    rfl
  · exact Nat.isDigit_of_mem_toDigits (by decide) (by decide) digit

theorem Numeral.chars_ne_nil {bound : Nat} (numeral : Numeral bound) : numeral.chars ≠ [] := by
  simp [Numeral.chars, Nat.toDigits_ne_nil]

theorem token_ascii (op : MicroOp) :
    op.token.toList ≠ [] ∧ op.token.toList.all isAsciiWordChar = true := by
  cases op with
  | memory op => cases op <;> decide +kernel
  | arithmetic op => cases op <;> decide +kernel

/-- The name of a micro-op is an ASCII word. -/
def Name.ofOp (op : MicroOp) : Name where
  chars := op.token.toList
  nonempty := (token_ascii op).1
  ascii := List.all_eq_true.mp (token_ascii op).2

theorem Qualified.inside (qualified : Qualified) :
    ∀ char ∈ qualified.chars, isDestinationChar char = true := by
  intro char member
  simp only [Qualified.chars, List.mem_append, List.mem_cons] at member
  rcases member with inUnit | rfl | inBuffer
  · exact isDestinationChar_of_ascii (qualified.unit.ascii char inUnit)
  · rfl
  · exact isDestinationChar_of_ascii (qualified.buffer.ascii char inBuffer)

theorem Destination.chars_ne_nil (destination : Destination) : destination.chars ≠ [] := by
  cases destination <;> simp [Destination.chars, Qualified.chars]

theorem Destination.inside (destination : Destination) :
    ∀ char ∈ destination.chars, isDestinationChar char = true := by
  cases destination with
  | input qualified => exact qualified.inside
  | programCounter | null => exact List.all_eq_true.mp (by decide)

/-- What stands between the parentheses of a repeated micro-op. -/
def repeatedChars (op : Spaced MicroOp) (count : Spaced (Numeral UInt32.size)) : List Char :=
  op.chars (·.token.toList) ++ ',' :: count.chars Numeral.chars

theorem Source.chars_repeated (op : Spaced MicroOp) (count : Spaced (Numeral UInt32.size)) :
    (Source.repeated op count).chars = '(' :: repeatedChars op count ++ [')'] := rfl

theorem repeatedChars_inside (op : Spaced MicroOp) (count : Spaced (Numeral UInt32.size)) :
    ∀ char ∈ repeatedChars op count, isInnerChar char = true := by
  intro char member
  simp only [repeatedChars, List.mem_append, List.mem_cons] at member
  rcases member with inOp | rfl | inCount
  · exact op.all rfl rfl
      (fun char inName => isInnerChar_of_ascii ((Name.ofOp op.item).ascii char inName)) char inOp
  · rfl
  · exact count.all rfl rfl
      (fun char digit => isInnerChar_of_ascii (ascii_of_isDigit (count.item.isDigit char digit)))
      char inCount

/-! ## Lines -/

section Lines

variable {run : Char → Bool} {word : List Char}

theorem oneLine_of_run (inside : ∀ char ∈ word, run char = true) (outside : run '\n' = false) :
    '\n' ∉ word := fun member =>
  Bool.false_ne_true (outside.symm.trans (inside '\n' member))

theorem Spacing.oneLine (spacing : Spacing) : '\n' ∉ spacing.chars :=
  oneLine_of_run (spacing.all isLabelSpace rfl rfl) rfl

theorem Name.oneLine (name : Name) : '\n' ∉ name.chars := oneLine_of_run name.ascii rfl

theorem Source.oneLine (source : Source) : '\n' ∉ source.chars := by
  cases source with
  | number value => simpa [Source.chars] using oneLine_of_run value.isDigit rfl
  | repeated op count =>
    simpa [Source.chars_repeated] using oneLine_of_run (repeatedChars_inside op count) rfl
  | single op => exact (Name.ofOp op).oneLine
  | output qualified => exact oneLine_of_run qualified.inside (by decide)
  | label name => exact name.oneLine

/-- No statement goes beyond its line. -/
theorem Statement.lineBreaks_chars (statement : Statement) : lineBreaks statement.chars = 0 := by
  refine List.count_eq_zero.mpr ?_
  cases statement with
  | comment remark oneLine => simpa [Statement.chars] using oneLine
  | label name beforeColon =>
    simpa [Statement.chars] using ⟨name.oneLine, beforeColon.oneLine⟩
  | move parts =>
    have destination := oneLine_of_run parts.destination.inside (by decide)
    simpa [Statement.chars, Move.chars] using
      ⟨parts.source.oneLine, parts.beforeArrow.oneLine, parts.afterArrow.oneLine, destination⟩

end Lines

/-! ## The lexemes of moves -/

section Moves

variable {word rest : List Char}

theorem Name.comment?_append (name : Name) (rest : List Char) :
    comment? (name.chars ++ rest) = none := by
  obtain ⟨first, later, split, ascii, -⟩ := name.eq_cons
  rw [split, List.cons_append, comment?_of_ne (ne_of_ascii ascii _ rfl)]

/-- A word that no colon follows defines no label. -/
theorem Name.label?_append (name : Name) (stops : Stops isWordChar rest)
    (noColon : ∀ after, rest.dropWhile isLabelSpace ≠ ':' :: after) :
    label? (name.chars ++ rest) = none := by
  obtain ⟨first, later, split, -, ascii⟩ := name.eq_cons
  have inside : ∀ char ∈ later, isWordChar char = true := fun char member =>
    isWordChar_of_isAsciiWordChar (ascii char member)
  rw [split, List.cons_append, label?]
  split
  · -- the name ends in front of `rest`, and then `noColon` leaves no way to go on
    simp only [dropWhile_run inside stops]
  · rfl

theorem source?_of_run (nonempty : word ≠ [])
    (inside : ∀ char ∈ word, isSourceChar char = true) (stops : Stops isSourceChar rest) :
    source? (word ++ rest) = some (word, rest) := by
  have taken := takeWhile_run inside stops
  have behind := dropWhile_run inside stops
  cases word with
  | nil => exact absurd rfl nonempty
  | cons first word =>
    have plain : first ≠ '(' := by
      rintro rfl
      exact absurd (inside '(' List.mem_cons_self) (by decide)
    rw [List.cons_append] at taken behind ⊢
    simp [source?_of_plain plain, taken, behind]

theorem Name.source?_append (name : Name) (stops : Stops isSourceChar rest) :
    source? (name.chars ++ rest) = some (name.chars, rest) :=
  source?_of_run name.nonempty
    (fun char member => isSourceChar_of_ascii (name.ascii char member)) stops

/-- A source ends in front of what is no part of it. -/
theorem Source.source?_append (source : Source) (stops : Stops isSourceChar rest) :
    source? (source.chars ++ rest) = some (source.chars, rest) := by
  cases source with
  | number value =>
    refine source?_of_run (List.cons_ne_nil _ _) ?_ stops
    refine List.forall_mem_cons.mpr ⟨by decide, fun char member => ?_⟩
    exact isSourceChar_of_ascii (ascii_of_isDigit (value.isDigit char member))
  | repeated op count =>
    have inside := repeatedChars_inside op count
    have closes : Stops isInnerChar (')' :: rest) := stops_cons rfl rest
    simp [Source.chars_repeated, source?, takeWhile_run inside closes, dropWhile_run inside closes]
  | single op => exact (Name.ofOp op).source?_append stops
  | output qualified =>
    refine source?_of_run ?_ (fun char member => ?_) stops
    · simp [Source.chars, Qualified.chars]
    · exact isSourceChar_of_isDestinationChar (qualified.inside char member)
  | label name => exact name.source?_append stops

/-- A source that no colon follows is neither a comment nor the definition of a label. -/
theorem Source.nothing_else (source : Source) (stops : Stops isWordChar rest)
    (noColon : ∀ after, rest.dropWhile isLabelSpace ≠ ':' :: after) :
    comment? (source.chars ++ rest) = none ∧ label? (source.chars ++ rest) = none := by
  cases source with
  | number value => exact ⟨rfl, rfl⟩
  | repeated op count => exact ⟨rfl, rfl⟩
  | single op =>
    exact ⟨(Name.ofOp op).comment?_append rest, (Name.ofOp op).label?_append stops noColon⟩
  | output qualified =>
    rw [Source.chars, Qualified.chars, List.append_assoc]
    exact ⟨qualified.unit.comment?_append _,
      qualified.unit.label?_append (stops_cons (by decide) _) nofun⟩
  | label name => exact ⟨name.comment?_append rest, name.label?_append stops noColon⟩

theorem Destination.destination?_append (destination : Destination)
    (stops : Stops isDestinationChar rest) :
    destination? (destination.chars ++ rest) = some (destination.chars, rest) := by
  simp [destination?, takeWhile_run destination.inside stops,
    dropWhile_run destination.inside stops, destination.chars_ne_nil]

/-- A destination does not begin with a blank. -/
theorem Destination.stops_isBlank (destination : Destination) (rest : List Char) :
    Stops isBlank (destination.chars ++ rest) :=
  stops_append destination.chars_ne_nil (fun char member => isBlank_of_isSourceChar
    (isSourceChar_of_isDestinationChar (destination.inside char member))) rest

namespace Move

variable (move : Move)

/-- What follows the source of a move. -/
def behindSource (rest : List Char) : List Char :=
  move.beforeArrow.chars ++
    '-' :: '>' :: (move.afterArrow.chars ++ (move.destination.chars ++ rest))

theorem chars_append (rest : List Char) :
    move.chars ++ rest = move.source.chars ++ move.behindSource rest := by
  simp [Move.chars, behindSource]

/-- What takes in neither spacing nor the arrow ends with the source. -/
theorem behindSource_stops {run : Char → Bool} (space : run ' ' = false) (tab : run '\t' = false)
    (arrow : run '-' = false) (rest : List Char) : Stops run (move.behindSource rest) :=
  move.beforeArrow.stops space tab (stops_cons arrow _)

/-- Behind the spacing there is the arrow, not the colon of a label. -/
theorem behindSource_noColon (rest after : List Char) :
    (move.behindSource rest).dropWhile isLabelSpace ≠ ':' :: after := by
  intro colon
  rw [behindSource, dropWhile_run (move.beforeArrow.all _ rfl rfl) (stops_cons rfl _)] at colon
  exact absurd (List.cons.inj colon).1 (by decide)

/-- A move ends in front of what is no part of its destination. -/
theorem lexeme?_append (stops : Stops isDestinationChar rest) :
    lexeme? (move.chars ++ rest) =
      some ⟨.move move.source.text move.destination.text, move.chars, rest⟩ := by
  obtain ⟨noComment, noLabel⟩ := move.source.nothing_else
    (move.behindSource_stops (by decide) (by decide) (by decide) rest)
    (move.behindSource_noColon rest)
  have isSource := move.source.source?_append
    (move.behindSource_stops (by decide) (by decide) (by decide) rest)
  have blankBefore := move.beforeArrow.all isBlank rfl rfl
  have blankAfter := move.afterArrow.all isBlank rfl rfl
  have arrow : Stops isBlank
      ('-' :: '>' :: (move.afterArrow.chars ++ (move.destination.chars ++ rest))) :=
    stops_cons rfl _
  have begins := move.destination.stops_isBlank rest
  rw [chars_append, lexeme?, noComment, noLabel, move?, isSource]
  simp [behindSource, takeWhile_run blankBefore arrow, dropWhile_run blankBefore arrow,
    takeWhile_run blankAfter begins, dropWhile_run blankAfter begins,
    move.destination.destination?_append stops, Move.chars, Source.text, Destination.text]

end Move

end Moves

/-! ## The lexemes of statements -/

/-- What a statement is to the reader of lexemes. -/
def Statement.token : Statement → Token
  | .comment _ _ => .comment
  | .label name _ => .label name.text
  | .move parts => .move parts.source.text parts.destination.text

/-- A statement ends at the end of its line. -/
theorem Statement.lexeme?_append (statement : Statement) (rest : List Char) :
    lexeme? (statement.chars ++ '\n' :: rest) =
      some ⟨statement.token, statement.chars, '\n' :: rest⟩ := by
  cases statement with
  | comment remark oneLine =>
    have inside : ∀ char ∈ remark, (char != '\n') = true := by
      intro char member
      simpa using fun same : char = '\n' => oneLine (same ▸ member)
    have stops : Stops (· != '\n') ('\n' :: rest) := stops_cons rfl rest
    simp [Statement.chars, Statement.token, lexeme?, comment?, takeWhile_run inside stops,
      dropWhile_run inside stops]
  | label name spacing =>
    obtain ⟨first, later, split, starts, ascii⟩ := name.eq_cons
    have noSlash : first ≠ '/' := by
      rintro rfl
      cases starts
    have inside : ∀ char ∈ later, isWordChar char = true := fun char member =>
      isWordChar_of_isAsciiWordChar (ascii char member)
    have nameStops : Stops isWordChar (spacing.chars ++ ':' :: '\n' :: rest) :=
      spacing.stops (by decide) (by decide) (stops_cons (by decide) _)
    have blank := spacing.all isLabelSpace rfl rfl
    have colon : Stops isLabelSpace (':' :: '\n' :: rest) := stops_cons rfl _
    simp [Statement.chars, Statement.token, Name.text, split, lexeme?, comment?_of_ne noSlash,
      label?, starts, takeWhile_run inside nameStops, dropWhile_run inside nameStops,
      takeWhile_run blank colon, dropWhile_run blank colon]
  | move parts => exact parts.lexeme?_append (stops_cons (by decide) rest)

/-! ## Programs -/

/-- A program taken apart, when the gap in front of it is given. -/
def piecesOf (gap : List Char) : List Statement → Pieces
  | [] => ⟨[], gap⟩
  | statement :: later =>
    let behind := piecesOf ['\n'] later
    { behind with pieces := ⟨gap, statement.token, statement.chars⟩ :: behind.pieces }

theorem piecesAfter_chars (gap : List Char) (statements : List Statement) :
    piecesAfter gap (chars statements) = piecesOf gap.reverse statements := by
  induction statements generalizing gap with
  | nil => exact piecesAfter_nil gap
  | cons statement later ih =>
    have found := statement.lexeme?_append (chars later)
    have parts : chars (statement :: later) = statement.chars ++ '\n' :: chars later := by
      simp [chars]
    rw [parts, piecesAfter_of_some gap found]
    simp only [pieces, piecesAfter_of_none [] (lexeme?_of_blank (rfl : isBlank '\n' = true) _), ih]
    rfl

/-- A program is taken apart into its statements, with a line break behind each. -/
theorem pieces_chars (statements : List Statement) :
    pieces (chars statements) = piecesOf [] statements :=
  piecesAfter_chars [] statements

end Grammar
end MoveMachine
