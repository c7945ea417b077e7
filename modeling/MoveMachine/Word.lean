import MoveMachine.Bytes

/-!
# Words

Every value in the machine is a word of 64 bits. A word carries no tag: the
unit that consumes it decides whether it reads an unsigned number (`toNat`), a
signed number (`toInt`), the bits of a float, or a micro-op with its repetition
count (`opcode`, `repetitions`). The constructors `ofNat`, `ofInt` and
`ofMicroOp` wrap: they keep the lowest 64 bits of what they are given.
-/

set_option autoImplicit false

namespace MoveMachine

/-- Sixty-four bits that every unit reads in its own way. -/
structure Word where
  /-- The bits, as an unsigned number. -/
  bits : UInt64
deriving DecidableEq, Inhabited

namespace Word

/-- The word with all bits clear. -/
def zero : Word := ⟨0⟩

/-- The word with the lowest 64 bits of a natural number. -/
def ofNat (number : Nat) : Word := ⟨UInt64.ofNat number⟩

/-- The word with the lowest 64 bits of an integer in two's complement. -/
def ofInt (number : Int) : Word := ⟨UInt64.ofBitVec (BitVec.ofInt 64 number)⟩

/-- The word that is one if a condition holds and zero if not. -/
def ofFlag (holds : Bool) : Word := if holds then ⟨1⟩ else ⟨0⟩

/-- The word that asks a unit to execute an opcode a number of times: the opcode is in the low
half, the count in the high half. -/
def ofMicroOp (opcode repetitions : Nat) : Word := ofNat (opcode + UInt32.size * repetitions)

/-- The unsigned reading. -/
def toNat (word : Word) : Nat := word.bits.toNat

/-- The signed reading, in two's complement. -/
def toInt (word : Word) : Int := word.bits.toBitVec.toInt

/-- The truth reading: every word but zero is true. -/
def isTrue (word : Word) : Bool := word.bits != 0

/-- The opcode in the low half. -/
def opcode (word : Word) : Nat := word.toNat % UInt32.size

/-- The repetition count in the high half. -/
def repetitions (word : Word) : Nat := word.toNat / UInt32.size

/-- The eight bytes of a word, least significant first. -/
def bytes (word : Word) : List Byte := littleEndian 8 word.toNat

/-- The word whose bytes are listed least significant first. -/
def ofBytes (bytes : List Byte) : Word := ofNat (ofLittleEndian bytes)

/-- All sixteen hexadecimal digits of a word, after the customary `0x`. -/
def hexText (word : Word) : String := "0x" ++ hexadecimal 16 word.toNat

@[simp] theorem toNat_ofNat (number : Nat) : (ofNat number).toNat = number % UInt64.size := by
  simp [ofNat, toNat]

@[simp] theorem ofNat_toNat (word : Word) : ofNat word.toNat = word := by
  simp [ofNat, toNat]

/-- A word is determined by its unsigned reading. -/
theorem toNat_inj {first second : Word} : first.toNat = second.toNat ↔ first = second := by
  constructor
  · intro same
    rw [← ofNat_toNat first, ← ofNat_toNat second, same]
  · rintro rfl
    rfl

/-- The unsigned reading has 64 bits. -/
theorem toNat_lt (word : Word) : word.toNat < UInt64.size := word.bits.toNat_lt

/-- The bytes of a word give it back. -/
@[simp] theorem ofBytes_bytes (word : Word) : ofBytes word.bytes = word := by
  have small : word.toNat % Nat.pow 256 8 = word.toNat := Nat.mod_eq_of_lt word.toNat_lt
  rw [ofBytes, bytes, ofLittleEndian_littleEndian, small, ofNat_toNat]

end Word
end MoveMachine
