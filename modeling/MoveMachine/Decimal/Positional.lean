import MoveMachine.Decimal.Shortest

/-!
# Positional text of floats

Floats are written with the fewest digits that read back, never with an
exponent: very large ones end in zeros and very small ones begin with them. A
whole number has no point. Zero keeps its sign; what is not a number has none.
-/

set_option autoImplicit false

namespace MoveMachine.Decimal

/-- A decimal in positional notation: zeros fill up to the point on either side of the digits. -/
def Scaled.text (decimal : Scaled) : String :=
  let digits := (toString decimal.digits).toList
  let places := (-decimal.exponent).toNat
  if places = 0 then
    String.ofList (digits ++ List.replicate decimal.exponent.toNat '0')
  else
    let padded := List.replicate (places + 1 - digits.length) '0' ++ digits
    let whole := padded.length - places
    String.ofList (padded.take whole ++ '.' :: padded.drop whole)

/-- The text of the float with the given bits. -/
def positional (bits : UInt64) : String :=
  let negative := bits.toNat / Nat.pow 2 63 = 1
  let biased : Nat := (bits.toNat / Nat.pow 2 52) % Nat.pow 2 11
  let fraction : Nat := bits.toNat % Nat.pow 2 52
  if biased = 2047 ∧ fraction ≠ 0 then "NaN"
  else
    let magnitude := if biased = 2047 then "inf" else (Binary.ofBits bits).shortest.text
    if negative then "-" ++ magnitude else magnitude

end MoveMachine.Decimal
