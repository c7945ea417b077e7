import MoveMachine.Assembly.Error
import MoveMachine.MicroOp
import MoveMachine.Word
import MoveMachine.Text.Blank
import MoveMachine.Text.WordChar
import MoveMachine.Decimal.Reading

/-!
# Operands of moves

The source of a move is a number after `$`, a micro-op (in parentheses with a
repetition count, or alone and executed once), an output by the names of its
unit and itself, or a label. Its destination is an input by its names, the
program counter, or nothing. Names of units, buffers and referenced labels are
ASCII words, whatever the lexemes of a text allow.
-/

set_option autoImplicit false

namespace MoveMachine.Assembly

open Text

/-- A source that has been understood. -/
inductive Source where
  /-- A constant. -/
  | constant (value : Word)
  /-- An output. -/
  | output (address : Address)
  /-- The index of the instruction that a label names. -/
  | label (name : String)
deriving DecidableEq

/-- A destination that has been understood. -/
inductive Destination where
  /-- An input. -/
  | input (address : Address)
  /-- The program counter. -/
  | programCounter
  /-- Nowhere: the value is dropped. -/
  | nowhere
deriving DecidableEq

/-- The names of a unit and a buffer with `@` between them, both ASCII words. -/
def splitAddress? (operand : List Char) : Option (String × String) :=
  let unit := operand.takeWhile (· != '@')
  match operand.dropWhile (· != '@') with
  | [] => none
  | _ :: buffer =>
    if unit ≠ [] ∧ unit.all isAsciiWordChar ∧ buffer ≠ [] ∧ buffer.all isAsciiWordChar then
      some (String.ofList unit, String.ofList buffer)
    else none

/-- Whether an operand is an ASCII word that does not begin with a digit. -/
def isIdentifier : List Char → Bool
  | [] => false
  | first :: rest => (first.isAlpha || first == '_') && rest.all isAsciiWordChar

/-- Whether a name has a meaning of its own, so that no label can have it. -/
def isReserved (name : String) : Bool :=
  name == "pc" || name == "null" || (MicroOp.ofToken? name).isSome

/-- The operand between parentheses, if it is all there is. -/
def parenthesised? : List Char → Option (List Char)
  | '(' :: rest => if rest.getLast? = some ')' then some rest.dropLast else none
  | _ => none

/-- The constant of a micro-op with a repetition count: the two are separated by the first comma,
and blanks around either mean nothing. The count is looked at before the name. -/
def readRepeated (inner : List Char) (malformed : Error) (unknown : String → Error) :
    Except Error Source :=
  match inner.dropWhile (· != ',') with
  | [] => .error malformed
  | _ :: afterComma =>
    let token := String.ofList (trim (inner.takeWhile (· != ',')))
    match Decimal.wordOfDigits? (trim afterComma) with
    | none => .error malformed
    | some count =>
      if count < UInt32.size then
        match MicroOp.ofToken? token with
        | none => .error (unknown token)
        | some op => .ok (.constant (.ofMicroOp op.code count))
      else .error malformed

/-- What a source means that is marked by no sign: a micro-op that is executed once, an output, or a
label, in this order. -/
def readPlain (topology : Topology) (source statement : String) (line : Nat) :
    Except Error Source :=
  match MicroOp.ofToken? source with
  | some op => .ok (.constant (.ofMicroOp op.code 1))
  | none => match splitAddress? source.toList with
    | some (unit, buffer) => match topology.resolve unit buffer .output with
      | .ok address => .ok (.output address)
      | .error reason => .error (.ofResolve .source statement line reason)
    | none =>
      if isIdentifier source.toList && source != "pc" && source != "null" then .ok (.label source)
      else .error (.malformedSource source statement line)

/-- What a source means. -/
def readSource (topology : Topology) (source statement : String) (line : Nat) :
    Except Error Source :=
  let malformed := Error.malformedSource source statement line
  match source.toList with
  | '$' :: digits =>
    match Decimal.wordOfDigits? digits with
    | some number => .ok (.constant (.ofNat number))
    | none => .error malformed
  | operand =>
    match parenthesised? operand with
    | some inner => readRepeated inner malformed fun token => .unknownMicroOp token statement line
    | none => readPlain topology source statement line

/-- What a destination means. -/
def readDestination (topology : Topology) (destination statement : String) (line : Nat) :
    Except Error Destination :=
  if destination = "pc" then .ok .programCounter
  else if destination = "null" then .ok .nowhere
  else match splitAddress? destination.toList with
    | none => .error (.invalidDestination destination statement line)
    | some (unit, buffer) => match topology.resolve unit buffer .input with
      | .ok address => .ok (.input address)
      | .error reason => .error (.ofResolve .destination statement line reason)

end MoveMachine.Assembly
