/-!
# Micro-ops

Load-store units and arithmetic units are told what to do by a word on their
opcode input. Each kind has its own opcodes, so the same number means different
operations to them; opcode zero means nothing to either. In assembly text a
micro-op is named by its token, and no token names two.
-/

set_option autoImplicit false

namespace MoveMachine

/-- What a load-store unit can do. -/
inductive MemoryOp where
  /-- Read the word at an address. -/
  | load
  /-- Write a word to an address. -/
  | store
deriving DecidableEq, Inhabited

/-- What an arithmetic unit can do. The last letter tells how the operands are read: `N` as natural
numbers, `Z` as integers, `B` as truth values. -/
inductive ArithmeticOp where
  | addN | subN | mulN | divN | modN | lesN | leqN | eqqN | neqN
  | addZ | subZ | mulZ | divZ | modZ | lesZ | leqZ | eqqZ | neqZ
  | andB | orB | eqqB | neqB
deriving DecidableEq, Inhabited

/-- A micro-op together with the kind of unit that understands it. -/
inductive MicroOp where
  | memory (op : MemoryOp)
  | arithmetic (op : ArithmeticOp)
deriving DecidableEq

namespace MemoryOp

/-- All memory operations, by opcode. -/
def all : List MemoryOp := [.load, .store]

/-- The opcode of a memory operation. -/
def code : MemoryOp → Nat
  | .load => 1
  | .store => 2

/-- The name of a memory operation in assembly text. -/
def token : MemoryOp → String
  | .load => "ld"
  | .store => "st"

/-- The memory operation with an opcode. -/
def ofCode? (code : Nat) : Option MemoryOp := all.find? (·.code == code)

/-- The memory operation with a name. -/
def ofToken? (token : String) : Option MemoryOp := all.find? (·.token == token)

/-- An opcode belongs to the operation found for it. -/
theorem ofCode?_eq_some_iff {code : Nat} {op : MemoryOp} :
    ofCode? code = some op ↔ op.code = code := by
  constructor
  · intro found
    simpa using List.find?_some found
  · rintro rfl
    cases op <;> rfl

end MemoryOp

namespace ArithmeticOp

/-- All arithmetic operations, by opcode. -/
def all : List ArithmeticOp :=
  [.addN, .subN, .mulN, .divN, .modN, .lesN, .leqN, .eqqN, .neqN,
   .addZ, .subZ, .mulZ, .divZ, .modZ, .lesZ, .leqZ, .eqqZ, .neqZ,
   .andB, .orB, .eqqB, .neqB]

/-- The opcode of an arithmetic operation. -/
def code : ArithmeticOp → Nat
  | .addN => 1 | .subN => 2 | .mulN => 3 | .divN => 4 | .modN => 5
  | .lesN => 6 | .leqN => 7 | .eqqN => 8 | .neqN => 9
  | .addZ => 10 | .subZ => 11 | .mulZ => 12 | .divZ => 13 | .modZ => 14
  | .lesZ => 15 | .leqZ => 16 | .eqqZ => 17 | .neqZ => 18
  | .andB => 19 | .orB => 20 | .eqqB => 21 | .neqB => 22

/-- The name of an arithmetic operation in assembly text. -/
def token : ArithmeticOp → String
  | .addN => "addN" | .subN => "subN" | .mulN => "mulN" | .divN => "divN" | .modN => "modN"
  | .lesN => "lesN" | .leqN => "leqN" | .eqqN => "eqqN" | .neqN => "neqN"
  | .addZ => "addZ" | .subZ => "subZ" | .mulZ => "mulZ" | .divZ => "divZ" | .modZ => "modZ"
  | .lesZ => "lesZ" | .leqZ => "leqZ" | .eqqZ => "eqqZ" | .neqZ => "neqZ"
  | .andB => "andB" | .orB => "orB" | .eqqB => "eqqB" | .neqB => "neqB"

/-- The arithmetic operation with an opcode. -/
def ofCode? (code : Nat) : Option ArithmeticOp := all.find? (·.code == code)

/-- The arithmetic operation with a name. -/
def ofToken? (token : String) : Option ArithmeticOp := all.find? (·.token == token)

/-- An opcode belongs to the operation found for it. -/
theorem ofCode?_eq_some_iff {code : Nat} {op : ArithmeticOp} :
    ofCode? code = some op ↔ op.code = code := by
  constructor
  · intro found
    simpa using List.find?_some found
  · rintro rfl
    cases op <;> rfl

end ArithmeticOp

namespace MicroOp

/-- The opcode of a micro-op, as its own kind of unit reads it. -/
def code : MicroOp → Nat
  | .memory op => op.code
  | .arithmetic op => op.code

/-- The name of a micro-op in assembly text. -/
def token : MicroOp → String
  | .memory op => op.token
  | .arithmetic op => op.token

/-- The micro-op with a name. -/
def ofToken? (token : String) : Option MicroOp :=
  ((MemoryOp.ofToken? token).map .memory).or ((ArithmeticOp.ofToken? token).map .arithmetic)

end MicroOp
end MoveMachine
