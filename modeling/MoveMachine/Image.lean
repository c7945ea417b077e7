import MoveMachine.Instruction.Record
import MoveMachine.Fault
import MoveMachine.Topology

/-!
# Program images

An image is the records of a program, one after the other. Bytes are an image if
they are a whole number of records and every record is that of an instruction
(`Image.ofBytes`). Whether an image suits a topology is asked separately
(`Image.validate`): every output that it moves from and every input that it
moves to has to exist.
-/

set_option autoImplicit false

namespace MoveMachine

/-- The bytes of a packed program. -/
structure Image where
  bytes : List Byte
deriving DecidableEq

namespace Image

open Instruction (recordSize)

/-- The image of a program. -/
def ofProgram (program : List Instruction) : Image := ⟨program.flatMap Instruction.record⟩

/-- The number of records. -/
def size (image : Image) : Nat := image.bytes.length / recordSize

/-- The sum of all bytes, in 32 bits. -/
def checksum (image : Image) : Nat := image.bytes.foldl (· + ·.toNat) 0 % UInt32.size

/-- Cuts bytes into the given number of records. -/
def records : (count : Nat) → List Byte → List (List Byte)
  | 0, _ => []
  | count + 1, bytes => bytes.take recordSize :: records count (bytes.drop recordSize)

/-- The instructions of consecutive records, of which the first has the given index. -/
def decodeFrom (index : Nat) : List (List Byte) → Except Fault (List Instruction)
  | [] => .ok []
  | record :: later =>
    match Instruction.ofRecord? record with
    | none => .error (.invalidImage (.invalidCode index (Instruction.recordCode record)))
    | some instruction => (decodeFrom (index + 1) later).map (instruction :: ·)

/-- The program of an image. -/
def program (image : Image) : Except Fault (List Instruction) :=
  decodeFrom 0 (records image.size image.bytes)

/-- The image with given bytes. -/
def ofBytes (bytes : List Byte) : Except Fault Image :=
  if bytes.length % recordSize = 0 then
    let image : Image := ⟨bytes⟩
    image.program.map fun _ => image
  else .error (.invalidImage (.ragged bytes.length))

/-- Refuses an address that is neither null nor a buffer on the given side. -/
def checkEndpoint (topology : Topology) (address : Address) (side : Side) : Except Fault Unit :=
  if address.isNull || topology.hasEndpoint address side then .ok ()
  else .error (.unknownBuffer address)

/-- Refuses an instruction with an address that does not exist; the source is looked at first. -/
def checkInstruction (topology : Topology) : Instruction → Except Fault Unit
  | .move source destination => do
    checkEndpoint topology source .output
    checkEndpoint topology destination .input
  | .immediate _ destination => checkEndpoint topology destination .input
  | .jump _ => .ok ()

/-- Refuses a program with an address that does not exist; the first one is reported. -/
def checkProgram (topology : Topology) : List Instruction → Except Fault Unit
  | [] => .ok ()
  | instruction :: later => do
    checkInstruction topology instruction
    checkProgram topology later

/-- Refuses an image that does not suit a topology. -/
def validate (image : Image) (topology : Topology) : Except Fault Unit := do
  checkProgram topology (← image.program)

end Image
end MoveMachine
