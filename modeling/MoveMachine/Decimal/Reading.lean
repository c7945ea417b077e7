/-!
# Reading numbers

Natural numbers are plain ASCII digits (`naturalOfDigits?`), and often have to
fit into a word (`wordOfDigits?`). Floats are read from decimal text with an
optional sign, point and exponent and rounded to the nearest float
(`floatOfText?`); a decimal too large for any float is infinite and one too
small is zero. A float is given by its bits, so that its sign is never in doubt.
-/

set_option autoImplicit false

namespace MoveMachine.Decimal

/-- The value of a sequence of ASCII digits, continuing from digits already read. -/
def continueDigits (value : Nat) (digits : List Char) : Nat :=
  digits.foldl (fun value digit => 10 * value + (digit.toNat - '0'.toNat)) value

/-- The number written by a nonempty sequence of ASCII digits. -/
def naturalOfDigits? (digits : List Char) : Option Nat :=
  if digits ≠ [] ∧ digits.all Char.isDigit then some (continueDigits 0 digits) else none

/-- The number of at most 64 bits written by a nonempty sequence of ASCII digits. -/
def wordOfDigits? (digits : List Char) : Option Nat := do
  let number ← naturalOfDigits? digits
  if number < UInt64.size then return number else none

/-- The number of at most 64 bits written by digits, in front of which a plus sign may stand. -/
def unsignedOfText? : List Char → Option Nat
  | '+' :: digits => wordOfDigits? digits
  | digits => wordOfDigits? digits

/-- The bits of the infinite float. -/
def infinity : UInt64 := 0x7FF0000000000000

/-- The bits of the float that is not a number. -/
def notANumber : UInt64 := 0x7FF8000000000000

/-- The bits of a float with the given sign, from the bits without one. -/
def withSign (negative : Bool) (magnitude : UInt64) : UInt64 :=
  if negative then magnitude ||| 0x8000000000000000 else magnitude

/-- The bits of the float nearest to `digits * 10 ^ exponent`. Decimals that are out of range by
their size alone are settled without computing the power. -/
def roundToFloat (digits : Nat) (exponent : Int) : UInt64 :=
  let size : Int := (toString digits).length + exponent
  if digits = 0 ∨ size < -400 then 0
  else if size > 400 then infinity
  else (Float.ofScientific digits (exponent < 0) exponent.natAbs).toBits

/-- The sign at the front of a number, and what follows it. -/
def splitSign : List Char → Bool × List Char
  | '-' :: rest => (true, rest)
  | '+' :: rest => (false, rest)
  | rest => (false, rest)

/-- The exponent part of a number, which may be missing. -/
def exponentOfText? : List Char → Option Int
  | [] => some 0
  | mark :: rest =>
    if mark = 'e' ∨ mark = 'E' then
      let (negative, digits) := splitSign rest
      (naturalOfDigits? digits).map fun value => if negative then -(value : Int) else value
    else none

/-- The magnitude of a float in digits: whole part, point, places and exponent. Either the whole
part or the places may be missing, but not both. -/
def magnitudeOfText? (text : List Char) : Option UInt64 := do
  let whole := text.takeWhile Char.isDigit
  let afterWhole := text.dropWhile Char.isDigit
  let (places, afterPlaces) := match afterWhole with
    | '.' :: rest => (rest.takeWhile Char.isDigit, rest.dropWhile Char.isDigit)
    | rest => ([], rest)
  let exponent ← exponentOfText? afterPlaces
  let digits ← naturalOfDigits? (whole ++ places)
  return roundToFloat digits (exponent - places.length)

/-- The bits of the float written by a text; infinities and what is not a number are named in any
case of letters, and both take a sign. -/
def floatOfText? (text : String) : Option UInt64 :=
  let (negative, magnitude) := splitSign text.toList
  let name := String.ofList (magnitude.map Char.toLower)
  (if name = "inf" ∨ name = "infinity" then some infinity
    else if name = "nan" then some notANumber
    else magnitudeOfText? magnitude).map (withSign negative)

end MoveMachine.Decimal
