import MoveMachine.Word
import MoveMachine.Address
import MoveMachine.Decimal.Positional

/-!
# Instructions

A program only moves values: from an output to an input, from the instruction
itself into an input, or into the program counter. Everything else happens in
the units that the values reach.
-/

set_option autoImplicit false

namespace MoveMachine

/-- One move. -/
inductive Instruction where
  /-- The next value of an output goes to an input, or nowhere if the destination is null. -/
  | move (source destination : Address)
  /-- A constant goes to an input. -/
  | immediate (value : Word) (destination : Address)
  /-- The program continues at the instruction with this index. -/
  | jump (target : Word)
deriving DecidableEq, Inhabited

namespace Instruction

/-- The three forms of instructions. -/
inductive Form where
  | move
  | immediate
  | jump
deriving DecidableEq

/-- The number that stands for a form in a program image. -/
def Form.code : Form → Nat
  | .move => 1
  | .immediate => 2
  | .jump => 3

/-- All forms, by code. -/
def Form.all : List Form := [.move, .immediate, .jump]

/-- The form that a number in a program image stands for. -/
def Form.ofCode? (code : Nat) : Option Form := all.find? (·.code == code)

/-- A form is found by its number and by no other. -/
theorem Form.ofCode?_eq_some_iff {code : Nat} {form : Form} :
    ofCode? code = some form ↔ form.code = code := by
  constructor
  · intro found
    simpa using List.find?_some found
  · rintro rfl
    cases form <;> rfl

/-- The form of an instruction. -/
def form : Instruction → Form
  | .move .. => .move
  | .immediate .. => .immediate
  | .jump _ => .jump

/-- Where an instruction sends a value; a jump sends none and has the null address here. -/
def destination : Instruction → Address
  | .move _ destination => destination
  | .immediate _ destination => destination
  | .jump _ => .null

/-- An instruction as a line of a listing. A constant is shown in all its readings. -/
def text : Instruction → String
  | .move source destination => "move " ++ source.text ++ " -> " ++ destination.text
  | .immediate value destination =>
    "move_immediate $" ++ toString value.toNat ++ " or float $" ++ Decimal.positional value.bits
      ++ " or $(" ++ toString value.opcode ++ ", " ++ toString value.repetitions ++ ") -> "
      ++ destination.text
  | .jump target => "move_pc $" ++ toString target.toNat ++ " -> pc"

end Instruction
end MoveMachine
