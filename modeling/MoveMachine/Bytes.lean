/-!
# Numbers as bytes and as hexadecimal digits

A number is stored little-endian: the least significant byte comes first
(`littleEndian`, `ofLittleEndian`). For people it is written as a fixed number
of lower-case hexadecimal digits (`hexadecimal`).
-/

set_option autoImplicit false

namespace MoveMachine

/-- A byte, as stored in program images. -/
abbrev Byte := UInt8

/-- The `count` lowest bytes of a number, least significant first. -/
def littleEndian : (count : Nat) → (number : Nat) → List Byte
  | 0, _ => []
  | count + 1, number => UInt8.ofNat (number % 256) :: littleEndian count (number / 256)

/-- The number whose bytes are listed least significant first. -/
def ofLittleEndian : List Byte → Nat
  | [] => 0
  | byte :: higher => byte.toNat + 256 * ofLittleEndian higher

/-- A number has as many bytes as asked for. -/
@[simp] theorem length_littleEndian (count number : Nat) :
    (littleEndian count number).length = count := by
  induction count generalizing number with
  | zero => rfl
  | succ count ih => simp [littleEndian, ih]

/-- Reading the bytes of a number gives it back modulo their range. -/
theorem ofLittleEndian_littleEndian (count number : Nat) :
    ofLittleEndian (littleEndian count number) = number % Nat.pow 256 count := by
  induction count generalizing number with
  | zero => simp [littleEndian, ofLittleEndian, Nat.mod_one]
  | succ count ih =>
    simp only [littleEndian, ofLittleEndian, ih, UInt8.toNat_ofNat']
    have range : Nat.pow 256 (count + 1) = 256 * Nat.pow 256 count := Nat.mul_comm _ _
    rw [Nat.mod_eq_of_lt (Nat.mod_lt number (by decide)), range, Nat.mod_mul]

/-- The lower-case digit of a number below sixteen. -/
def hexDigit (digit : Nat) : Char :=
  if digit < 10 then Char.ofNat ('0'.toNat + digit) else Char.ofNat ('a'.toNat + digit - 10)

/-- The `width` lowest hexadecimal digits of a number, most significant first. -/
def hexDigits : (width : Nat) → (number : Nat) → List Char
  | 0, _ => []
  | width + 1, number => hexDigits width (number / 16) ++ [hexDigit (number % 16)]

/-- The text of the `width` lowest hexadecimal digits of a number. -/
def hexadecimal (width number : Nat) : String :=
  String.ofList (hexDigits width number)

end MoveMachine
