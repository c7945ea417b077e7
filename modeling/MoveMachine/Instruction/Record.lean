import MoveMachine.Instruction

/-!
# Packed records

In a program image every instruction is a record of fourteen bytes:

* four bytes with the code of its form, least significant first,
* eight bytes with the source address (two bytes, then zeros) or the constant,
* two bytes with the destination address.

Reading a record looks only at the bytes that its form uses, so several records
can stand for one instruction; `Instruction.record` writes the canonical one.
-/

set_option autoImplicit false

namespace MoveMachine.Instruction

/-- The number of bytes in a record. -/
def recordSize : Nat := 14

/-- The eight bytes of an instruction between its code and its destination. -/
def payload : Instruction → List Byte
  | .move source _ => [source.unit, source.buffer, 0, 0, 0, 0, 0, 0]
  | .immediate value _ => value.bytes
  | .jump target => target.bytes

/-- The canonical record of an instruction. -/
def record (instruction : Instruction) : List Byte :=
  littleEndian 4 instruction.form.code ++ instruction.payload
    ++ [instruction.destination.unit, instruction.destination.buffer]

/-- The address in two bytes of a record. -/
def addressOfBytes (bytes : List Byte) : Address := ⟨bytes.getD 0 0, bytes.getD 1 0⟩

/-- The code in the first four bytes of a record. -/
def recordCode (record : List Byte) : Nat := ofLittleEndian (record.take 4)

/-- The instruction in a record, unless its code is that of no form. -/
def ofRecord? (record : List Byte) : Option Instruction :=
  let payload := (record.drop 4).take 8
  let destination := addressOfBytes (record.drop 12)
  (Form.ofCode? (recordCode record)).map fun
    | .move => .move (addressOfBytes payload) destination
    | .immediate => .immediate (.ofBytes payload) destination
    | .jump => .jump (.ofBytes payload)

/-- Every record has the same size. -/
@[simp] theorem length_record (instruction : Instruction) :
    instruction.record.length = recordSize := by
  cases instruction <;> simp [record, payload, Word.bytes, recordSize]

end MoveMachine.Instruction
