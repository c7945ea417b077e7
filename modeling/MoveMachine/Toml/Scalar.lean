import MoveMachine.Toml.Value
import MoveMachine.Decimal.Reading

/-!
# Scalars of a TOML document

Strings come in four forms: in double quotes, with escapes, or in single quotes,
as they stand; and each on one line or, with the quote tripled, on several.
Numbers and truth values are read from the longest run of characters that any
of them uses (`scalarOfText?`).
-/

set_option autoImplicit false

namespace MoveMachine.Toml

/-! ## Characters -/

/-- Whether a character may stand in a comment. -/
def isCommentChar (char : Char) : Bool :=
  char == '\t' || (0x20 ≤ char.toNat && char.toNat != 0x7F)

/-- Whether a character stands for itself between double quotes. -/
def isPlainChar (char : Char) : Bool := isCommentChar char && char != '"' && char != '\\'

/-- Whether a character may stand between single quotes. -/
def isLiteralChar (char : Char) : Bool := isCommentChar char && char != '\''

/-- Whether a character is a space or a tab. -/
def isSpace (char : Char) : Bool := char == ' ' || char == '\t'

/-- What follows a line break, if the text begins with one. -/
def afterLineBreak? : List Char → Option (List Char)
  | '\n' :: rest => some rest
  | '\r' :: '\n' :: rest => some rest
  | _ => none

/-- A text without the spaces, tabs and line breaks at its front. -/
def dropBlankLines : List Char → List Char
  | ' ' :: rest => dropBlankLines rest
  | '\t' :: rest => dropBlankLines rest
  | '\n' :: rest => dropBlankLines rest
  | '\r' :: '\n' :: rest => dropBlankLines rest
  | rest => rest

/-! ## Strings -/

/-- Whether a character is a hexadecimal digit of either case. -/
def isHexDigit (char : Char) : Bool :=
  char.isDigit || ('a' ≤ char && char ≤ 'f') || ('A' ≤ char && char ≤ 'F')

/-- The value of a digit in a base up to sixteen. -/
def digitValue (digit : Char) : Nat :=
  if digit.isDigit then digit.toNat - '0'.toNat else digit.toLower.toNat - 'a'.toNat + 10

/-- The number that digits write in a base. -/
def numberInBase (base : Nat) (digits : List Char) : Nat :=
  digits.foldl (fun number digit => base * number + digitValue digit) 0

/-- The character written by a number of hexadecimal digits, unless it is no character. -/
def characterOfCode? (width : Nat) (text : List Char) : Option (Char × List Char) :=
  let digits := text.take width
  let code := numberInBase 16 digits
  if digits.length = width ∧ digits.all isHexDigit ∧ code.isValidChar then
    some (Char.ofNat code, text.drop width)
  else none

/-- The character that an escape writes; the text starts after the backslash. -/
def escaped? : List Char → Option (Char × List Char)
  | 'b' :: rest => some ('\x08', rest)
  | 't' :: rest => some ('\t', rest)
  | 'n' :: rest => some ('\n', rest)
  | 'f' :: rest => some ('\x0c', rest)
  | 'r' :: rest => some ('\r', rest)
  | '"' :: rest => some ('"', rest)
  | '\\' :: rest => some ('\\', rest)
  | 'u' :: rest => characterOfCode? 4 rest
  | 'U' :: rest => characterOfCode? 8 rest
  | _ => none

/-- A piece of a string. -/
inductive Piece where
  /-- Characters, with more to come. -/
  | more (content : List Char)
  /-- Characters and the end of the string. -/
  | last (content : List Char)

/-- Reads pieces up to the last one; the bound is the length of the text, which every piece
shortens. -/
def readPieces (readPiece : List Char → Option (Piece × List Char)) :
    (bound : Nat) → List Char → Option (List Char × List Char)
  | 0, _ => none
  | bound + 1, text =>
    match readPiece text with
    | some (.more content, rest) =>
      (readPieces readPiece bound rest).map fun (later, rest) => (content ++ later, rest)
    | some (.last content, rest) => some (content, rest)
    | none => none

/-- Reads a string to its end. -/
def readString (readPiece : List Char → Option (Piece × List Char)) (text : List Char) :
    Option (String × List Char) :=
  (readPieces readPiece (text.length + 1) text).map fun (content, rest) =>
    (String.ofList content, rest)

/-- A piece of a string in double quotes. -/
def basicPiece : List Char → Option (Piece × List Char)
  | '"' :: rest => some (.last [], rest)
  | '\\' :: rest => (escaped? rest).map fun (char, rest) => (.more [char], rest)
  | char :: rest => if isPlainChar char then some (.more [char], rest) else none
  | [] => none

/-- A piece of a string in single quotes. -/
def literalPiece : List Char → Option (Piece × List Char)
  | '\'' :: rest => some (.last [], rest)
  | char :: rest => if isLiteralChar char then some (.more [char], rest) else none
  | [] => none

/-- A run of quotes in a string with tripled quotes: three of them end the string, and up to two
more in front of these belong to it. -/
def quotesPiece (quote : Char) (text : List Char) : Option (Piece × List Char) :=
  let quotes := text.takeWhile (· == quote)
  let rest := text.dropWhile (· == quote)
  if quotes.length < 3 then some (.more quotes, rest)
  else if quotes.length ≤ 5 then some (.last (quotes.drop 3), rest)
  else none

/-- A piece of a string in tripled double quotes. A backslash at the end of a line joins it with the
next text. -/
def longBasicPiece (text : List Char) : Option (Piece × List Char) :=
  match text with
  | '"' :: _ => quotesPiece '"' text
  | '\\' :: rest =>
    match afterLineBreak? (rest.dropWhile isSpace) with
    | some next => some (.more [], dropBlankLines next)
    | none => (escaped? rest).map fun (char, rest) => (.more [char], rest)
  | char :: rest =>
    match afterLineBreak? text with
    | some next => some (.more ['\n'], next)
    | none => if isPlainChar char then some (.more [char], rest) else none
  | [] => none

/-- A piece of a string in tripled single quotes. -/
def longLiteralPiece (text : List Char) : Option (Piece × List Char) :=
  match text with
  | '\'' :: _ => quotesPiece '\'' text
  | char :: rest =>
    match afterLineBreak? text with
    | some next => some (.more ['\n'], next)
    | none => if isLiteralChar char then some (.more [char], rest) else none
  | [] => none

/-- The string at the front of a text, if the text begins with a quote. A line break right after
tripled quotes is not part of the string. -/
def stringOfText? : List Char → Option (String × List Char)
  | '"' :: '"' :: '"' :: rest => readString longBasicPiece ((afterLineBreak? rest).getD rest)
  | '\'' :: '\'' :: '\'' :: rest => readString longLiteralPiece ((afterLineBreak? rest).getD rest)
  | '"' :: rest => readString basicPiece rest
  | '\'' :: rest => readString literalPiece rest
  | _ => none

/-! ## Numbers and truth values -/

/-- Digits without the underscores that may stand between two of them. -/
def plainDigits? (isDigit : Char → Bool) : List Char → Option (List Char)
  | [] => none
  | [digit] => if isDigit digit then some [digit] else none
  | digit :: '_' :: rest =>
    if isDigit digit then (plainDigits? isDigit rest).map (digit :: ·) else none
  | digit :: rest =>
    if isDigit digit then (plainDigits? isDigit rest).map (digit :: ·) else none

/-- Decimal digits without underscores and without a zero in front of others. -/
def wholeDigits? (text : List Char) : Option (List Char) := do
  let digits ← plainDigits? Char.isDigit text
  if digits.length > 1 ∧ digits.head? = some '0' then none else return digits

/-- A number that fits into 64 bits with its sign. -/
def integer? (number : Int) : Option Value :=
  if Int64.minValue.toInt ≤ number ∧ number ≤ Int64.maxValue.toInt then some (.integer number) else none

/-- A number in a base other than ten. -/
def basedInteger? (base : Nat) (isDigit : Char → Bool) (text : List Char) : Option Value := do
  let digits ← plainDigits? isDigit text
  integer? (numberInBase base digits)

/-- A number in base ten, with its sign. -/
def decimalInteger? (negative : Bool) (text : List Char) : Option Value := do
  let number : Int := Decimal.continueDigits 0 (← wholeDigits? text)
  integer? (if negative then -number else number)

/-- The exponent of a float, in digits that may begin with zeros. -/
def exponent? (text : List Char) : Option Int := do
  let (negative, digits) := Decimal.splitSign text
  let number : Int := Decimal.continueDigits 0 (← plainDigits? Char.isDigit digits)
  return if negative then -number else number

/-- A float: a whole part, and places or an exponent or both. Digits too large for any float are
refused, unless a minus sign precedes them. -/
def float? (negative : Bool) (text : List Char) : Option Value := do
  let isMark (char : Char) : Bool := char == 'e' || char == 'E'
  let mantissa := text.takeWhile (!isMark ·)
  let exponent ← match text.dropWhile (!isMark ·) with
    | [] => some 0
    | _ :: exponent => exponent? exponent
  let whole ← wholeDigits? (mantissa.takeWhile (· != '.'))
  let places ← match mantissa.dropWhile (· != '.') with
    | [] => some []
    | _ :: places => plainDigits? Char.isDigit places
  let magnitude := Decimal.roundToFloat (Decimal.continueDigits 0 (whole ++ places))
    (exponent - places.length)
  if magnitude = Decimal.infinity ∧ !negative then none
  else return .float (Decimal.withSign negative magnitude)

/-- A number in base ten: a float if it has a point or an exponent. -/
def decimalNumber? (negative : Bool) (text : List Char) : Option Value :=
  if text.any fun char => char == '.' || char == 'e' || char == 'E' then float? negative text
  else decimalInteger? negative text

/-- The number or truth value that a text writes. -/
def scalarOfText? (text : List Char) : Option Value :=
  match text with
  | ['t', 'r', 'u', 'e'] => some (.boolean true)
  | ['f', 'a', 'l', 's', 'e'] => some (.boolean false)
  | '0' :: 'x' :: digits => basedInteger? 16 isHexDigit digits
  | '0' :: 'o' :: digits => basedInteger? 8 (fun char => '0' ≤ char && char ≤ '7') digits
  | '0' :: 'b' :: digits => basedInteger? 2 (fun char => char == '0' || char == '1') digits
  | _ =>
    match Decimal.splitSign text with
    | (negative, ['i', 'n', 'f']) => some (.float (Decimal.withSign negative Decimal.infinity))
    | (negative, ['n', 'a', 'n']) => some (.float (Decimal.withSign negative Decimal.notANumber))
    | (negative, digits) => decimalNumber? negative digits

/-- Whether a character may belong to a number or a truth value. -/
def isScalarChar (char : Char) : Bool :=
  char.isAlphanum || char == '_' || char == '+' || char == '-' || char == '.'

end MoveMachine.Toml
