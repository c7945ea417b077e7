import MoveMachine.Kernel.Arithmetic
import Mathlib.Data.Int.ModEq
import Mathlib.Tactic.NormNum

/-!
# Words compute modulo 2 ^ 64

The two readings of a word differ by a multiple of 2 ^ 64 (`Word.modEq`), so a word that stands for
an integer modulo 2 ^ 64 does so under either (`Word.Represents`), and there is one such word only
(`Word.Represents.unique`). Sums, differences and products respect this; that is why each of them
has the same result for natural numbers and for integers.

Quotients, remainders and the order depend on the reading. They are exact, since their results fit
into a word again, with one exception: the least integer divided by minus one
(`Word.tdiv_fits`). All laws are put together in `ArithmeticOp.computes_exactly`.
-/

set_option autoImplicit false

namespace MoveMachine

namespace Word

variable {word other first second : Word} {number : Int}

/-! ## Two readings -/

theorem toNat_eq_zero_iff : word.toNat = 0 ↔ word = .zero := by
  rw [← toNat_inj]
  rfl

theorem toInt_eq_zero_iff : word.toInt = 0 ↔ word = .zero := by
  constructor
  · intro isZero
    have bits : word.bits.toBitVec = 0#64 := by
      rw [← BitVec.toInt_inj]
      exact isZero
    exact congrArg Word.mk (UInt64.toBitVec_inj.mp bits)
  · rintro rfl
    rfl

theorem le_toInt (word : Word) : -2 ^ 63 ≤ word.toInt := word.bits.toBitVec.le_toInt

theorem toInt_lt (word : Word) : word.toInt < 2 ^ 63 := word.bits.toBitVec.toInt_lt

/-- The signed reading in terms of the unsigned one. -/
theorem toInt_eq (word : Word) :
    word.toInt = if word.toNat < 2 ^ 63 then (word.toNat : Int) else word.toNat - 2 ^ 64 := by
  have cond := word.bits.toBitVec.toInt_eq_toNat_cond
  change word.toInt = if 2 * word.toNat < 2 ^ 64 then (word.toNat : Int) else word.toNat - 2 ^ 64
    at cond
  rw [cond]
  split <;> split <;> omega

/-- The two readings of a word differ by a multiple of 2 ^ 64. -/
theorem modEq (word : Word) : word.toInt ≡ word.toNat [ZMOD 2 ^ 64] := by
  rw [toInt_eq]
  split
  · rfl
  · exact Int.modEq_iff_dvd.mpr ⟨1, by omega⟩

/-- Every word but zero is true. -/
theorem isTrue_iff : word.isTrue = true ↔ word ≠ .zero := by
  rw [isTrue, bne_iff_ne, Ne, Ne, zero, Word.mk.injEq]

/-- One and zero are different words. -/
theorem ofFlag_inj {flag other : Bool} : ofFlag flag = ofFlag other ↔ flag = other := by
  cases flag <;> cases other <;> decide

/-- The highest bit of a word. -/
def signBit (word : Word) : Bool := word.toNat.testBit 63

/-- The highest bit is set in the words that are negative in the signed reading. -/
theorem signBit_iff : word.signBit = true ↔ 2 ^ 63 ≤ word.toNat := by
  have below : word.toNat < 2 ^ 64 := word.toNat_lt
  rw [signBit, Nat.testBit_eq_decide_div_mod_eq, decide_eq_true_eq]
  omega

/-! ## Integers modulo 2 ^ 64 -/

/-- Whether a word stands for an integer modulo 2 ^ 64, under either reading. -/
structure Represents (word : Word) (number : Int) : Prop where
  unsigned : word.toNat ≡ number [ZMOD 2 ^ 64]
  signed : word.toInt ≡ number [ZMOD 2 ^ 64]

theorem represents_of_unsigned (same : word.toNat ≡ number [ZMOD 2 ^ 64]) :
    word.Represents number :=
  ⟨same, word.modEq.trans same⟩

/-- Only one word stands for an integer. -/
theorem Represents.unique (represents : word.Represents number)
    (representsToo : other.Represents number) : word = other := by
  have same : (word.toNat : Int) ≡ other.toNat [ZMOD 2 ^ 64] :=
    represents.unsigned.trans representsToo.unsigned.symm
  have below : word.toNat < 2 ^ 64 := word.toNat_lt
  have belowToo : other.toNat < 2 ^ 64 := other.toNat_lt
  rw [Int.ModEq] at same
  exact toNat_inj.mp (by omega)

theorem represents_ofInt (number : Int) : (ofInt number).Represents number := by
  apply represents_of_unsigned
  have value : (ofInt number).toNat = (number % 2 ^ 64).toNat := BitVec.toNat_ofInt number
  rw [value, Int.toNat_of_nonneg (Int.emod_nonneg number (by norm_num))]
  exact Int.mod_modEq number _

theorem represents_ofNat (number : Nat) : (ofNat number).Represents number := by
  apply represents_of_unsigned
  rw [toNat_ofNat]
  exact Int.mod_modEq number (2 ^ 64)

/-- A natural number is an integer. -/
theorem ofNat_eq_ofInt (number : Nat) : ofNat number = ofInt number :=
  (represents_ofNat number).unique (represents_ofInt number)

/-- The word of an integer that fits reads as this integer. -/
theorem toInt_ofInt (low : -2 ^ 63 ≤ number) (high : number < 2 ^ 63) :
    (ofInt number).toInt = number := by
  have same := (represents_ofInt number).signed
  have lower := (ofInt number).le_toInt
  have upper := (ofInt number).toInt_lt
  rw [Int.ModEq] at same
  omega

/-! ## Quotients and remainders -/

/-- The signed quotient fits into a word unless the least integer is divided by minus one. -/
theorem tdiv_fits (first second : Word) (regular : ¬(first.toInt = -2 ^ 63 ∧ second.toInt = -1)) :
    -2 ^ 63 ≤ first.toInt.tdiv second.toInt ∧ first.toInt.tdiv second.toInt < 2 ^ 63 := by
  have lower := first.le_toInt
  have upper := first.toInt_lt
  have size : (first.toInt.tdiv second.toInt).natAbs =
      first.toInt.natAbs / second.toInt.natAbs := Int.natAbs_tdiv _ _
  have smaller := Nat.div_le_self first.toInt.natAbs second.toInt.natAbs
  refine ⟨by omega, ?_⟩
  by_contra large
  -- The size of the quotient is at its limit, so the dividend is the least integer and the divisor
  -- has the size one.
  have isLeast : first.toInt = -2 ^ 63 := by omega
  have isUnit : second.toInt.natAbs = 1 := by
    rcases (by omega : second.toInt.natAbs = 0 ∨ second.toInt.natAbs = 1 ∨
      2 ≤ second.toInt.natAbs) with none | one | several
    · rw [none, Nat.div_zero] at size
      omega
    · exact one
    · have half : first.toInt.natAbs / second.toInt.natAbs ≤ first.toInt.natAbs / 2 :=
        Nat.div_le_div_left several (by decide)
      omega
  rcases Int.natAbs_eq second.toInt with positive | negative
  · rw [positive, isUnit, Nat.cast_one, Int.tdiv_one] at large
    omega
  · exact regular ⟨isLeast, by omega⟩

/-- The signed remainder is smaller than the divisor. -/
theorem natAbs_tmod_lt (first : Word) {second : Word} (divisor : second ≠ .zero) :
    (first.toInt.tmod second.toInt).natAbs < second.toInt.natAbs := by
  rw [Int.natAbs_tmod]
  have nonzero : second.toInt ≠ 0 := mt toInt_eq_zero_iff.mp divisor
  exact Nat.mod_lt _ (by omega)

theorem toInt_ofInt_tmod (first : Word) {second : Word} (divisor : second ≠ .zero) :
    (ofInt (first.toInt.tmod second.toInt)).toInt = first.toInt.tmod second.toInt := by
  have smaller := natAbs_tmod_lt first divisor
  have lower := second.le_toInt
  have upper := second.toInt_lt
  exact toInt_ofInt (by omega) (by omega)

end Word

namespace ArithmeticOp

variable {unit : UInt8} {op : ArithmeticOp} {first second : Word}

/-! ## Results -/

/-- The operations that divide. -/
def divisions : List ArithmeticOp := [.divN, .modN, .divZ, .modZ]

/-- Only a division by zero has no result. -/
theorem eval?_eq_none_iff :
    op.eval? first second = none ↔ op ∈ divisions ∧ second = .zero := by
  cases op with
  | divN | modN => simp [eval?, divisions, Word.toNat_eq_zero_iff]
  | divZ | modZ => simp [eval?, divisions, Word.toInt_eq_zero_iff]
  | addN | subN | mulN | lesN | leqN | eqqN | neqN | addZ | subZ | mulZ | lesZ | leqZ | eqqZ | neqZ
  | andB | orB | eqqB | neqB => simp [eval?, divisions]

/-- A computation fails for a division by zero only, and names the unit. -/
theorem compute_eq_error_iff {fault : Fault} : op.compute unit first second = .error fault ↔
    fault = .divisionByZero unit ∧ op ∈ divisions ∧ second = .zero := by
  rw [← eval?_eq_none_iff, compute]
  cases op.eval? first second with
  | none => simp [eq_comm]
  | some result => simp

theorem compute_eq_ok {result : Word} (evaluates : op.eval? first second = some result) :
    op.compute unit first second = .ok result := by
  rw [compute, evaluates]

/-- Whether the outcome of a computation tells if a condition holds: it is one if it does and zero
if it does not. -/
structure Tells (outcome : Except Fault Word) (condition : Prop) : Prop where
  one : condition → outcome = .ok (.ofNat 1)
  zero : ¬condition → outcome = .ok (.ofNat 0)

theorem tells_of_flag {flag : Bool} {condition : Prop}
    (evaluates : op.eval? first second = some (.ofFlag flag)) (same : flag = true ↔ condition) :
    Tells (op.compute unit first second) condition := by
  rw [compute_eq_ok evaluates]
  constructor
  · intro holds
    rw [same.mpr holds]
    rfl
  · intro fails
    rw [Bool.eq_false_iff.mpr (mt same.mp fails)]
    rfl

/-! ## The laws of arithmetic -/

/-- Two operations whose exact results are congruent have one result, which stands for both. -/
theorem one_result {other : ArithmeticOp} {natural integer : Int}
    (same : integer ≡ natural [ZMOD 2 ^ 64])
    (evaluates : op.eval? first second = some (.ofInt natural))
    (evaluatesToo : other.eval? first second = some (.ofInt integer)) :
    ∃ word, op.compute unit first second = .ok word ∧ other.compute unit first second = .ok word ∧
      word.Represents natural ∧ word.Represents integer := by
  have standsFor := Word.represents_ofInt natural
  have standsForToo : (Word.ofInt natural).Represents integer :=
    ⟨standsFor.unsigned.trans same.symm, standsFor.signed.trans same.symm⟩
  have unique := standsForToo.unique (Word.represents_ofInt integer)
  exact ⟨_, compute_eq_ok evaluates, compute_eq_ok (unique ▸ evaluatesToo), standsFor,
    standsForToo⟩

theorem sums_agree (unit : UInt8) (first second : Word) :
    ∃ sum, addN.compute unit first second = .ok sum ∧ addZ.compute unit first second = .ok sum ∧
      sum.Represents (first.toNat + second.toNat) ∧
      sum.Represents (first.toInt + second.toInt) := by
  refine one_result (first.modEq.add second.modEq) ?_ rfl
  rw [← Nat.cast_add, ← Word.ofNat_eq_ofInt]
  rfl

theorem differences_agree (unit : UInt8) (first second : Word) :
    ∃ difference, subN.compute unit first second = .ok difference ∧
      subZ.compute unit first second = .ok difference ∧
      difference.Represents (first.toNat - second.toNat) ∧
      difference.Represents (first.toInt - second.toInt) :=
  one_result (first.modEq.sub second.modEq) rfl rfl

theorem products_agree (unit : UInt8) (first second : Word) :
    ∃ product, mulN.compute unit first second = .ok product ∧
      mulZ.compute unit first second = .ok product ∧
      product.Represents (first.toNat * second.toNat) ∧
      product.Represents (first.toInt * second.toInt) := by
  refine one_result (first.modEq.mul second.modEq) ?_ rfl
  rw [← Nat.cast_mul, ← Word.ofNat_eq_ofInt]
  rfl

/-- Quotients and remainders of natural numbers are exact. -/
theorem divides_naturals (unit : UInt8) (first : Word) {second : Word} (divisor : second ≠ .zero) :
    ∃ quotient remainder, divN.compute unit first second = .ok quotient ∧
      modN.compute unit first second = .ok remainder ∧
      quotient.toNat = first.toNat / second.toNat ∧
      remainder.toNat = first.toNat % second.toNat := by
  have nonzero : second.toNat ≠ 0 := mt Word.toNat_eq_zero_iff.mp divisor
  have below : first.toNat < UInt64.size := first.toNat_lt
  refine ⟨_, _, compute_eq_ok (if_neg nonzero), compute_eq_ok (if_neg nonzero), ?_, ?_⟩
  · rw [Word.toNat_ofNat]
    exact Nat.mod_eq_of_lt ((Nat.div_le_self _ _).trans_lt below)
  · rw [Word.toNat_ofNat]
    exact Nat.mod_eq_of_lt ((Nat.mod_le _ _).trans_lt below)

/-- Quotients of integers are rounded toward zero, and remainders go with them. -/
theorem divides_integers (unit : UInt8) (first : Word) {second : Word} (divisor : second ≠ .zero) :
    ∃ quotient remainder, divZ.compute unit first second = .ok quotient ∧
      modZ.compute unit first second = .ok remainder ∧
      quotient.toInt * second.toInt + remainder.toInt ≡ first.toInt [ZMOD 2 ^ 64] ∧
      |remainder.toInt| < |second.toInt| ∧
      (remainder = .zero ∨ remainder.toInt.sign = first.toInt.sign) ∧
      if first.toInt = -2 ^ 63 ∧ second.toInt = -1 then
        quotient.toInt = -2 ^ 63 ∧ remainder = .zero
      else quotient.toInt = first.toInt.tdiv second.toInt := by
  have nonzero : second.toInt ≠ 0 := mt Word.toInt_eq_zero_iff.mp divisor
  have exactRemainder := Word.toInt_ofInt_tmod first divisor
  refine ⟨_, _, compute_eq_ok (if_neg nonzero), compute_eq_ok (if_neg nonzero), ?_, ?_, ?_, ?_⟩
  · have quotient := (Word.represents_ofInt (first.toInt.tdiv second.toInt)).signed
    have product := (quotient.mul_right second.toInt).add_right (first.toInt.tmod second.toInt)
    rwa [Int.tdiv_mul_add_tmod, ← exactRemainder] at product
  · have smaller := Word.natAbs_tmod_lt first divisor
    rw [exactRemainder, Int.abs_eq_natAbs, Int.abs_eq_natAbs]
    exact_mod_cast smaller
  · rw [← Word.toInt_eq_zero_iff, exactRemainder, Int.sign_tmod]
    by_cases divides : second.toInt ∣ first.toInt
    · exact .inl (Int.tmod_eq_zero_of_dvd divides)
    · exact .inr (if_neg divides)
  · split
    · rename_i overflow
      rw [overflow.1, overflow.2]
      exact ⟨by decide, by decide⟩
    · rename_i regular
      obtain ⟨low, high⟩ := Word.tdiv_fits first second regular
      exact Word.toInt_ofInt low high

theorem andB_tells (unit : UInt8) (first second : Word) :
    Tells (andB.compute unit first second) (first ≠ .zero ∧ second ≠ .zero) :=
  tells_of_flag rfl (by rw [Bool.and_eq_true, Word.isTrue_iff, Word.isTrue_iff])

theorem orB_tells (unit : UInt8) (first second : Word) :
    Tells (orB.compute unit first second) (first ≠ .zero ∨ second ≠ .zero) :=
  tells_of_flag rfl (by rw [Bool.or_eq_true, Word.isTrue_iff, Word.isTrue_iff])

theorem eqqB_tells (unit : UInt8) (first second : Word) :
    Tells (eqqB.compute unit first second) (first ≠ .zero ↔ second ≠ .zero) :=
  tells_of_flag rfl (by rw [beq_iff_eq, Bool.eq_iff_iff, Word.isTrue_iff, Word.isTrue_iff])

theorem neqB_tells (unit : UInt8) (first second : Word) :
    Tells (neqB.compute unit first second) ¬(first ≠ .zero ↔ second ≠ .zero) :=
  tells_of_flag rfl (by rw [bne_iff_ne, Ne, Bool.eq_iff_iff, Word.isTrue_iff, Word.isTrue_iff])

/-- The two orders agree on words with the same highest bit, and on no others. -/
theorem orders_agree_iff (unit : UInt8) (first second : Word) :
    lesN.compute unit first second = lesZ.compute unit first second ↔
      first.signBit = second.signBit := by
  have below : first.toNat < 2 ^ 64 := first.toNat_lt
  have belowToo : second.toNat < 2 ^ 64 := second.toNat_lt
  have natural : lesN.compute unit first second = .ok (.ofFlag (first.toNat < second.toNat)) :=
    compute_eq_ok rfl
  have integer : lesZ.compute unit first second = .ok (.ofFlag (first.toInt < second.toInt)) :=
    compute_eq_ok rfl
  rw [natural, integer, Except.ok.injEq, Word.ofFlag_inj, decide_eq_decide, Bool.eq_iff_iff,
    Word.signBit_iff, Word.signBit_iff, Word.toInt_eq, Word.toInt_eq]
  split <;> split <;> omega

/-- Arithmetic on words is that of two's complement. Sums, differences and products are exact modulo
2 ^ 64 and do not depend on the reading. Division by another word than zero gives the quotient and
the remainder of its reading, and wraps for the least integer and minus one only. Comparisons give
one or zero by the order of their reading, so the two orders agree exactly on words with the same
highest bit; truth operations give one or zero by whether the operands are zero. Nothing fails but
a division by zero. -/
theorem computes_exactly (unit : UInt8) (first second : Word) :
    ((∃ sum, addN.compute unit first second = .ok sum ∧ addZ.compute unit first second = .ok sum ∧
        sum.Represents (first.toNat + second.toNat) ∧
        sum.Represents (first.toInt + second.toInt)) ∧
      (∃ difference, subN.compute unit first second = .ok difference ∧
        subZ.compute unit first second = .ok difference ∧
        difference.Represents (first.toNat - second.toNat) ∧
        difference.Represents (first.toInt - second.toInt)) ∧
      ∃ product, mulN.compute unit first second = .ok product ∧
        mulZ.compute unit first second = .ok product ∧
        product.Represents (first.toNat * second.toNat) ∧
        product.Represents (first.toInt * second.toInt)) ∧
    (second ≠ .zero →
      (∃ quotient remainder, divN.compute unit first second = .ok quotient ∧
        modN.compute unit first second = .ok remainder ∧
        quotient.toNat = first.toNat / second.toNat ∧
        remainder.toNat = first.toNat % second.toNat) ∧
      ∃ quotient remainder, divZ.compute unit first second = .ok quotient ∧
        modZ.compute unit first second = .ok remainder ∧
        quotient.toInt * second.toInt + remainder.toInt ≡ first.toInt [ZMOD 2 ^ 64] ∧
        |remainder.toInt| < |second.toInt| ∧
        (remainder = .zero ∨ remainder.toInt.sign = first.toInt.sign) ∧
        if first.toInt = -2 ^ 63 ∧ second.toInt = -1 then
          quotient.toInt = -2 ^ 63 ∧ remainder = .zero
        else quotient.toInt = first.toInt.tdiv second.toInt) ∧
    (Tells (lesN.compute unit first second) (first.toNat < second.toNat) ∧
      Tells (leqN.compute unit first second) (first.toNat ≤ second.toNat) ∧
      Tells (eqqN.compute unit first second) (first.toNat = second.toNat) ∧
      Tells (neqN.compute unit first second) (first.toNat ≠ second.toNat) ∧
      Tells (lesZ.compute unit first second) (first.toInt < second.toInt) ∧
      Tells (leqZ.compute unit first second) (first.toInt ≤ second.toInt) ∧
      Tells (eqqZ.compute unit first second) (first.toInt = second.toInt) ∧
      Tells (neqZ.compute unit first second) (first.toInt ≠ second.toInt) ∧
      (lesN.compute unit first second = lesZ.compute unit first second ↔
        first.signBit = second.signBit)) ∧
    (Tells (andB.compute unit first second) (first ≠ .zero ∧ second ≠ .zero) ∧
      Tells (orB.compute unit first second) (first ≠ .zero ∨ second ≠ .zero) ∧
      Tells (eqqB.compute unit first second) (first ≠ .zero ↔ second ≠ .zero) ∧
      Tells (neqB.compute unit first second) ¬(first ≠ .zero ↔ second ≠ .zero)) ∧
    ∀ (op : ArithmeticOp) fault, op.compute unit first second = .error fault ↔
      fault = .divisionByZero unit ∧ op ∈ [.divN, .modN, .divZ, .modZ] ∧ second = .zero := by
  refine ⟨⟨sums_agree _ _ _, differences_agree _ _ _, products_agree _ _ _⟩, fun divisor =>
    ⟨divides_naturals unit first divisor, divides_integers unit first divisor⟩, ?comparisons,
    ⟨andB_tells _ _ _, orB_tells _ _ _, eqqB_tells _ _ _, neqB_tells _ _ _⟩,
    fun op fault => compute_eq_error_iff⟩
  case comparisons =>
    refine ⟨?_, ?_, ?_, ?_, ?_, ?_, ?_, ?_, orders_agree_iff unit first second⟩
    all_goals exact tells_of_flag rfl decide_eq_true_iff

/-- The least integer divided by minus one is the least integer again. -/
theorem least_divided :
    Word.ofInt (-1) ≠ .zero ∧ ∃ quotient remainder,
      divZ.compute 1 (.ofInt (-2 ^ 63)) (.ofInt (-1)) = .ok quotient ∧
      modZ.compute 1 (.ofInt (-2 ^ 63)) (.ofInt (-1)) = .ok remainder ∧
      quotient.toInt = -2 ^ 63 ∧ remainder = .zero := by
  have divisor : Word.ofInt (-1) ≠ .zero := by decide
  have overflow : (Word.ofInt (-2 ^ 63)).toInt = -2 ^ 63 ∧ (Word.ofInt (-1)).toInt = -1 := by
    decide
  obtain ⟨-, quotients, -⟩ := computes_exactly 1 (.ofInt (-2 ^ 63)) (.ofInt (-1))
  obtain ⟨-, quotient, remainder, divides, leaves, -, -, -, wraps⟩ := quotients divisor
  rw [if_pos overflow] at wraps
  exact ⟨divisor, quotient, remainder, divides, leaves, wraps⟩

end ArithmeticOp

end MoveMachine
