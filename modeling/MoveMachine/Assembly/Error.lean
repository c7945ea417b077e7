import MoveMachine.Topology

/-!
# Assembly errors

What can be wrong with a program text, with the line where it is. Errors in an
operand of a move quote the move in its normal spelling.
-/

set_option autoImplicit false

namespace MoveMachine.Assembly

/-- The two operands of a move. -/
inductive Operand where
  | source
  | destination
deriving DecidableEq

/-- What is wrong with a program text. -/
inductive Error where
  | duplicateLabel (label : String) (line firstLine : Nat)
  | reservedLabel (label : String) (line : Nat)
  | unknownSymbol (label : String) (line : Nat)
  | unknownUnit (operand : Operand) (unit statement : String) (line : Nat)
  | unknownBuffer (operand : Operand) (unit buffer statement : String) (line : Nat)
  | malformedSource (source statement : String) (line : Nat)
  | unknownMicroOp (token statement : String) (line : Nat)
  | invalidDestination (destination statement : String) (line : Nat)
  | invalidPcSource (statement : String) (line : Nat)
  | unexpectedText (text : String) (line : Nat)
deriving DecidableEq

/-- An operand as it is named in messages. -/
def Operand.text : Operand → String
  | .source => "Source"
  | .destination => "Destination"

namespace Error

/-- The line that an error refers to. -/
def line : Error → Nat
  | .duplicateLabel _ line _ => line
  | .reservedLabel _ line => line
  | .unknownSymbol _ line => line
  | .unknownUnit _ _ _ line => line
  | .unknownBuffer _ _ _ _ line => line
  | .malformedSource _ _ line => line
  | .unknownMicroOp _ _ line => line
  | .invalidDestination _ _ line => line
  | .invalidPcSource _ line => line
  | .unexpectedText _ line => line

/-- What an error says about its line. -/
def description : Error → String
  | .duplicateLabel label _ firstLine =>
    s!"duplicate label '{label}' (first defined on line {firstLine})"
  | .reservedLabel label _ => s!"'{label}' is reserved and cannot name a label"
  | .unknownSymbol label _ => s!"unknown reference to '{label}'"
  | .unknownUnit operand unit statement _ =>
    s!"{operand.text} unit '{unit}' not found in: {statement}"
  | .unknownBuffer operand unit buffer statement _ =>
    s!"{operand.text} buffer '{buffer}' not found on unit '{unit}' in: {statement}"
  | .malformedSource source statement _ =>
    s!"source '{source}' is neither address nor immediate value in: {statement}"
  | .unknownMicroOp token statement _ => s!"no opcode corresponds to '{token}' in: {statement}"
  | .invalidDestination destination statement _ =>
    s!"destination '{destination}' is no address in: {statement}"
  | .invalidPcSource statement _ => s!"only immediate or label moves to pc supported: {statement}"
  | .unexpectedText text _ => s!"unexpected text '{text}'"

/-- The wording of an error. -/
def message (error : Error) : String := s!"line {error.line}: {error.description}"

/-- An address that could not be found, as an error in an operand of a move. -/
def ofResolve (operand : Operand) (statement : String) (line : Nat) : ResolveError → Error
  | .unknownUnit unit => .unknownUnit operand unit statement line
  | .unknownBuffer unit buffer _ => .unknownBuffer operand unit buffer statement line

end Error
end MoveMachine.Assembly
