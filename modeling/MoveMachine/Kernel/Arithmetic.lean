import MoveMachine.Fault
import MoveMachine.MicroOp
import MoveMachine.Word

/-!
# Arithmetic on words

Sums, differences, products, quotients and remainders are computed exactly on
the unsigned or the signed readings of the operands and then cut to 64 bits. The
signed quotient is rounded toward zero, and the remainder has the sign of the
dividend. Comparisons and truth operations give one or zero.
-/

set_option autoImplicit false

namespace MoveMachine.ArithmeticOp

/-- The result of an operation on two words, or nothing for a division by zero. -/
def eval? (first second : Word) : ArithmeticOp → Option Word
  | .addN => some (.ofNat (first.toNat + second.toNat))
  | .subN => some (.ofInt (first.toNat - second.toNat))
  | .mulN => some (.ofNat (first.toNat * second.toNat))
  | .divN => if second.toNat = 0 then none else some (.ofNat (first.toNat / second.toNat))
  | .modN => if second.toNat = 0 then none else some (.ofNat (first.toNat % second.toNat))
  | .lesN => some (.ofFlag (first.toNat < second.toNat))
  | .leqN => some (.ofFlag (first.toNat ≤ second.toNat))
  | .eqqN => some (.ofFlag (first.toNat = second.toNat))
  | .neqN => some (.ofFlag (first.toNat ≠ second.toNat))
  | .addZ => some (.ofInt (first.toInt + second.toInt))
  | .subZ => some (.ofInt (first.toInt - second.toInt))
  | .mulZ => some (.ofInt (first.toInt * second.toInt))
  | .divZ => if second.toInt = 0 then none else some (.ofInt (first.toInt.tdiv second.toInt))
  | .modZ => if second.toInt = 0 then none else some (.ofInt (first.toInt.tmod second.toInt))
  | .lesZ => some (.ofFlag (first.toInt < second.toInt))
  | .leqZ => some (.ofFlag (first.toInt ≤ second.toInt))
  | .eqqZ => some (.ofFlag (first.toInt = second.toInt))
  | .neqZ => some (.ofFlag (first.toInt ≠ second.toInt))
  | .andB => some (.ofFlag (first.isTrue && second.isTrue))
  | .orB => some (.ofFlag (first.isTrue || second.isTrue))
  | .eqqB => some (.ofFlag (first.isTrue == second.isTrue))
  | .neqB => some (.ofFlag (first.isTrue != second.isTrue))

/-- The result of an operation on the arithmetic unit with a number. -/
def compute (op : ArithmeticOp) (unit : UInt8) (first second : Word) : Except Fault Word :=
  match op.eval? first second with
  | some result => .ok result
  | none => .error (.divisionByZero unit)

end MoveMachine.ArithmeticOp
