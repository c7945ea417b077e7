import MoveMachine.Proofs.Assembly.Spelling

/-!
# Operands mean what they say

The operands of a move are understood as the grammar means them, whatever spacing
there is in them (`Source.readSource_text`, `Destination.readDestination_text`). A
micro-op is told from a label by its name, and both from a buffer by the `@`, which no
name has.
-/

set_option autoImplicit false

namespace MoveMachine

open Assembly Text

namespace MicroOp

/-- A micro-op is found by its name. -/
theorem ofToken?_token (op : MicroOp) : ofToken? op.token = some op := by
  cases op with
  | memory op => cases op <;> decide +kernel
  | arithmetic op => cases op <;> decide +kernel

theorem token_of_ofToken? {token : String} {op : MicroOp} (found : ofToken? token = some op) :
    op.token = token := by
  simp only [ofToken?, Option.or_eq_some_iff, Option.map_eq_some_iff] at found
  rcases found with ⟨memory, isMemory, rfl⟩ | ⟨-, arithmetic, isArithmetic, rfl⟩
  · simpa [MicroOp.token] using List.find?_some isMemory
  · simpa [MicroOp.token] using List.find?_some isArithmetic

end MicroOp

namespace Grammar

variable {topology : Topology} {quoted : String} {line : Nat}

/-! ## Numbers -/

/-- A number is read from its digits, whatever zeros are in front of them. -/
theorem Numeral.wordOfDigits?_chars {bound : Nat} (numeral : Numeral bound)
    (fits : bound ≤ UInt64.size) :
    Decimal.wordOfDigits? numeral.chars = some numeral.value.val := by
  have value : Decimal.continueDigits 0 numeral.chars = numeral.value := by
    change Nat.ofDigitChars 10 numeral.chars 0 = numeral.value
    rw [Numeral.chars, Nat.ofDigitChars_append, Nat.ofDigitChars_replicate_zero, Nat.mul_zero,
      Nat.ofDigitChars_toDigits (by decide) (by decide)]
  have digits : numeral.chars.all Char.isDigit = true := List.all_eq_true.mpr numeral.isDigit
  have small : numeral.value.val < UInt64.size := numeral.value.isLt.trans_le fits
  simp [Decimal.wordOfDigits?, Decimal.naturalOfDigits?, numeral.chars_ne_nil, digits, value, small]

/-! ## Spacing -/

/-- Spacing around a word is trimmed off. -/
theorem Spaced.trim_chars {Item : Type} {spell : Item → List Char} (spaced : Spaced Item)
    (nonempty : spell spaced.item ≠ [])
    (ascii : ∀ char ∈ spell spaced.item, isAsciiWordChar char = true) :
    trim (spaced.chars spell) = spell spaced.item := by
  obtain ⟨before, item, after⟩ := spaced
  have noBlank : ∀ char ∈ spell item, isBlank char = false := fun char member =>
    isBlank_of_isSourceChar (isSourceChar_of_ascii (ascii char member))
  have front : trimLeft (before.chars ++ (spell item ++ after.chars)) =
      spell item ++ after.chars :=
    dropWhile_run (before.all _ rfl rfl) (stops_append nonempty noBlank _)
  have back : (after.chars.reverse ++ (spell item).reverse).dropWhile isBlank =
      (spell item).reverse := by
    refine dropWhile_run ?_ ?_
    · exact fun char member => after.all _ rfl rfl char (List.mem_reverse.mp member)
    · rw [← List.append_nil (spell item).reverse]
      exact stops_append (by simpa using nonempty)
        (fun char member => noBlank char (List.mem_reverse.mp member)) []
  simp [Spaced.chars, trim, front, trimRight, back]

/-! ## Names -/

/-- What has an `@` in it is the name of no micro-op. -/
theorem Qualified.ofToken?_text (qualified : Qualified) :
    MicroOp.ofToken? (String.ofList qualified.chars) = none := by
  by_contra found
  obtain ⟨op, isOp⟩ := Option.ne_none_iff_exists'.mp found
  have inName : '@' ∈ (Name.ofOp op).chars := by
    simp [Name.ofOp, MicroOp.token_of_ofToken? isOp, Qualified.chars]
  exact ne_of_ascii ((Name.ofOp op).ascii '@' inName) '@' rfl rfl

theorem Qualified.splitAddress?_chars (qualified : Qualified) :
    splitAddress? qualified.chars = some (qualified.unit.text, qualified.buffer.text) := by
  obtain ⟨unit, buffer⟩ := qualified
  have inside : ∀ char ∈ unit.chars, (char != '@') = true := fun char member => by
    simpa using ne_of_ascii (unit.ascii char member) '@' rfl
  have stops : Stops (· != '@') ('@' :: buffer.chars) := stops_cons rfl _
  have asciiUnit : unit.chars.all isAsciiWordChar = true := List.all_eq_true.mpr unit.ascii
  have asciiBuffer : buffer.chars.all isAsciiWordChar = true := List.all_eq_true.mpr buffer.ascii
  simp [splitAddress?, Qualified.chars, takeWhile_run inside stops, dropWhile_run inside stops,
    unit.nonempty, buffer.nonempty, asciiUnit, asciiBuffer, Name.text]

/-- A name without an `@` is no buffer. -/
theorem Name.splitAddress?_chars (name : Name) : splitAddress? name.chars = none := by
  have noAt : name.chars.dropWhile (· != '@') = [] := by
    refine List.dropWhile_eq_nil_iff.mpr fun char member => ?_
    simpa using ne_of_ascii (name.ascii char member) '@' rfl
  simp [splitAddress?, noAt]

theorem Identifier.isIdentifier_chars (name : Identifier) : isIdentifier name.chars = true := by
  obtain ⟨first, rest, split, starts, ascii⟩ := name.eq_cons
  rw [split, isIdentifier, List.all_eq_true.mpr ascii, Bool.and_true]
  exact starts

/-! ## Sources -/

/-- A source that begins with a word character is marked by no sign. -/
theorem readSource_of_ascii {source : String} {first : Char} {rest : List Char}
    (split : source.toList = first :: rest) (ascii : isAsciiWordChar first = true) :
    readSource topology source quoted line = readPlain topology source quoted line := by
  have noDollar : first ≠ '$' := ne_of_ascii ascii _ rfl
  have noParenthesis : parenthesised? (first :: rest) = none := by
    rw [parenthesised?]
    rintro inner ⟨rfl, -⟩
    exact ne_of_ascii ascii '(' rfl rfl
  rw [readSource, split]
  split
  · rename_i digits dollar
    exact absurd (List.cons.inj dollar).1 noDollar
  · rw [noParenthesis]

theorem Name.readSource_text (name : Name) :
    readSource topology name.text quoted line = readPlain topology name.text quoted line := by
  obtain ⟨first, rest, split, ascii, -⟩ := name.eq_cons
  exact readSource_of_ascii (by simpa [Name.text] using split) ascii

/-- A micro-op with its repetition count, whatever spacing there is around them. -/
theorem readRepeated_repeatedChars (op : Spaced MicroOp) (count : Spaced (Numeral UInt32.size))
    (malformed : Error) (unknown : String → Error) :
    readRepeated (repeatedChars op count) malformed unknown =
      .ok (.constant (.ofMicroOp op.item.code count.item.value)) := by
  have inside : ∀ char ∈ op.chars (·.token.toList), (char != ',') = true :=
    op.all rfl rfl fun char inName => by
      simpa using ne_of_ascii ((Name.ofOp op.item).ascii char inName) ',' rfl
  have comma : Stops (· != ',') (',' :: count.chars Numeral.chars) := stops_cons rfl _
  have token : trim (op.chars (·.token.toList)) = op.item.token.toList :=
    op.trim_chars (Name.ofOp op.item).nonempty (Name.ofOp op.item).ascii
  have digits : trim (count.chars Numeral.chars) = count.item.chars :=
    count.trim_chars count.item.chars_ne_nil fun char member =>
      ascii_of_isDigit (count.item.isDigit char member)
  simp [readRepeated, repeatedChars, takeWhile_run inside comma, dropWhile_run inside comma, token,
    digits, count.item.wordOfDigits?_chars (by decide), MicroOp.ofToken?_token]

/-- A source is understood as the grammar means it. -/
theorem Source.readSource_text (source : Source) :
    readSource topology source.text quoted line = source.meaning topology quoted line := by
  cases source with
  | number value =>
    simp [readSource, Source.text, Source.chars, value.wordOfDigits?_chars le_rfl, Source.meaning]
  | repeated op count =>
    have parentheses : parenthesised? ('(' :: (repeatedChars op count ++ [')'])) =
        some (repeatedChars op count) := by
      simp [parenthesised?]
    simp [readSource, Source.text, Source.chars_repeated, parentheses, Source.meaning,
      readRepeated_repeatedChars]
  | single op =>
    have read : readSource topology (Name.ofOp op).text quoted line = _ :=
      (Name.ofOp op).readSource_text
    simpa [Source.text, Source.chars, Source.meaning, Name.text, Name.ofOp, readPlain,
      MicroOp.ofToken?_token] using read
  | output qualified =>
    obtain ⟨first, rest, split, ascii, -⟩ := qualified.unit.eq_cons
    have begins : (Source.output qualified).text.toList =
        first :: (rest ++ '@' :: qualified.buffer.chars) := by
      simp [Source.text, Source.chars, Qualified.chars, split]
    rw [readSource_of_ascii begins ascii]
    cases resolved : topology.resolve qualified.unit.text qualified.buffer.text .output <;>
      simp [readPlain, Source.text, Source.chars, qualified.ofToken?_text,
        qualified.splitAddress?_chars, Source.meaning, resolved]
  | label name =>
    refine name.readSource_text.trans ?_
    rw [readPlain, Source.meaning]
    cases MicroOp.ofToken? name.text with
    | some op => rfl
    | none =>
      have chars : name.text.toList = name.chars := String.toList_ofList
      simp only [chars, name.splitAddress?_chars, name.isIdentifier_chars, Bool.true_and]
      by_cases reserved : name.text = "pc" ∨ name.text = "null"
      · rcases reserved with counter | isNull
        · simp [counter]
        · simp [isNull]
      · have free := not_or.mp reserved
        simp [free.1, free.2]

/-! ## Destinations -/

theorem Qualified.text_ne (qualified : Qualified) {other : String} (noAt : '@' ∉ other.toList) :
    String.ofList qualified.chars ≠ other := by
  rintro rfl
  exact noAt (by simp [Qualified.chars])

theorem Destination.readDestination_text (destination : Destination) :
    readDestination topology destination.text quoted line =
      destination.meaning topology quoted line := by
  cases destination with
  | input qualified =>
    have noCounter : String.ofList qualified.chars ≠ "pc" := qualified.text_ne (by decide +kernel)
    have notNull : String.ofList qualified.chars ≠ "null" := qualified.text_ne (by decide +kernel)
    cases resolved : topology.resolve qualified.unit.text qualified.buffer.text .input <;>
      simp [readDestination, Destination.text, Destination.chars, noCounter, notNull,
        qualified.splitAddress?_chars, Destination.meaning, resolved]
  | programCounter => rfl
  | null => rfl

end Grammar
end MoveMachine
