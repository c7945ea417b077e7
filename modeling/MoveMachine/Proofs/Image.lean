import MoveMachine.Image
import MoveMachine.Proofs.Topology

/-!
# Images

The image of a program reads back as the program (`Image.program_ofProgram`), since
every record reads back as its instruction.

An image suits a declared topology exactly if every address in its instructions is
null or a buffer of the topology (`Image.checkProgram_eq_ok_iff_allows`). Otherwise the
first address that is neither is reported, in the order of the program and with the
source of an instruction before its destination (`Image.checkProgram_error`).
-/

set_option autoImplicit false

namespace MoveMachine

/-! ## Reading back -/

namespace Instruction

/-- A record reads back as its instruction. -/
theorem ofRecord?_record (instruction : Instruction) :
    ofRecord? instruction.record = some instruction := by
  have code : recordCode instruction.record = instruction.form.code := by
    rw [recordCode, record, List.append_assoc,
      List.take_left' (length_littleEndian 4 instruction.form.code), ofLittleEndian_littleEndian]
    cases instruction <;> rfl
  rw [ofRecord?, code, Form.ofCode?_eq_some_iff.mpr rfl]
  cases instruction with
  | move source destination => rfl
  | immediate value destination =>
    have bytes : Word.ofBytes value.bytes = value := value.ofBytes_bytes
    exact congrArg (some <| immediate · destination) bytes
  | jump target =>
    have bytes : Word.ofBytes target.bytes = target := target.ofBytes_bytes
    exact congrArg (some <| jump ·) bytes

end Instruction

namespace Image

open Instruction (recordSize)

theorem length_flatMap_record (program : List Instruction) :
    (program.flatMap Instruction.record).length = program.length * recordSize := by
  induction program with
  | nil => rfl
  | cons instruction later ih =>
    rw [List.flatMap_cons, List.length_append, ih, Instruction.length_record, List.length_cons,
      Nat.succ_mul, Nat.add_comm]

@[simp] theorem size_ofProgram (program : List Instruction) :
    (ofProgram program).size = program.length := by
  rw [size, ofProgram, length_flatMap_record]
  exact Nat.mul_div_cancel _ (by decide)

/-- Cutting records that follow each other gives them back. -/
theorem records_flatMap_record (program : List Instruction) :
    records program.length (program.flatMap Instruction.record) =
      program.map Instruction.record := by
  induction program with
  | nil => rfl
  | cons instruction later ih =>
    have size := instruction.length_record
    rw [List.length_cons, records, List.flatMap_cons, List.take_left' size, List.drop_left' size,
      ih, List.map_cons]

theorem decodeFrom_map_record (index : Nat) (program : List Instruction) :
    decodeFrom index (program.map Instruction.record) = .ok program := by
  induction program generalizing index with
  | nil => rfl
  | cons instruction later ih =>
    simp [decodeFrom, Instruction.ofRecord?_record, ih, Except.map]

/-- The image of a program reads back as the program. -/
theorem program_ofProgram (program : List Instruction) :
    (ofProgram program).program = .ok program := by
  rw [Image.program, size_ofProgram, ofProgram, records_flatMap_record, decodeFrom_map_record]

/-- The bytes of a program are an image. -/
theorem ofBytes_ofProgram (program : List Instruction) :
    ofBytes (ofProgram program).bytes = .ok (ofProgram program) := by
  have whole : (ofProgram program).bytes.length % recordSize = 0 := by
    rw [ofProgram, length_flatMap_record]
    exact Nat.mul_mod_left _ _
  rw [ofBytes, if_pos whole]
  change ((ofProgram program).program.map fun _ => ofProgram program) = _
  rw [program_ofProgram]
  rfl

end Image

/-! ## Validation -/

/-- The addresses in an instruction, with the sides that they are on. -/
def Instruction.ends : Instruction → List (Address × Side)
  | .move source destination => [(source, .output), (destination, .input)]
  | .immediate _ destination => [(destination, .input)]
  | .jump _ => []

namespace Topology

/-- Whether an address is neither null nor a buffer on the side that it is on. -/
def lacks (topology : Topology) (place : Address × Side) : Bool :=
  !place.1.isNull && !topology.hasEndpoint place.1 place.2

/-- Whether an address is null or a buffer on the side that it is on. -/
def Allows (topology : Topology) (place : Address × Side) : Prop :=
  place.1.isNull = false → topology.IsBuffer place.1 place.2

theorem Declared.lacks_iff {topology : Topology} (declared : topology.Declared)
    {place : Address × Side} : topology.lacks place = true ↔ ¬topology.Allows place := by
  rw [lacks, Allows, ← declared.hasEndpoint_iff]
  simp

end Topology

namespace Image

/-- The report about the first address that was found to be missing. -/
def verdict : Option (Address × Side) → Except Fault Unit
  | none => .ok ()
  | some place => .error (.unknownBuffer place.1)

theorem verdict_or (first second : Option (Address × Side)) :
    verdict (first.or second) = (do verdict first; verdict second) := by
  cases first <;> rfl

variable {topology : Topology} {program : List Instruction}

theorem checkEndpoint_eq (address : Address) (side : Side) :
    checkEndpoint topology address side = verdict ([(address, side)].find? topology.lacks) := by
  rw [checkEndpoint, List.find?_singleton, Topology.lacks]
  cases address.isNull <;> cases topology.hasEndpoint address side <;> rfl

theorem checkInstruction_eq (instruction : Instruction) :
    checkInstruction topology instruction = verdict (instruction.ends.find? topology.lacks) := by
  cases instruction with
  | move source destination =>
    rw [Instruction.ends, ← List.singleton_append, List.find?_append, verdict_or,
      ← checkEndpoint_eq, ← checkEndpoint_eq]
    rfl
  | immediate value destination => exact checkEndpoint_eq destination .input
  | jump target => rfl

/-- Validation reports the first address that is missing. -/
theorem checkProgram_eq (program : List Instruction) :
    checkProgram topology program =
      verdict ((program.flatMap Instruction.ends).find? topology.lacks) := by
  induction program with
  | nil => rfl
  | cons instruction later ih =>
    rw [List.flatMap_cons, List.find?_append, verdict_or, ← checkInstruction_eq, ← ih]
    rfl

/-- A program is valid if none of its addresses is missing. -/
theorem checkProgram_eq_ok_iff :
    checkProgram topology program = .ok () ↔
      ∀ place ∈ program.flatMap Instruction.ends, topology.lacks place = false := by
  have noneLacks : (program.flatMap Instruction.ends).find? topology.lacks = none ↔
      ∀ place ∈ program.flatMap Instruction.ends, topology.lacks place = false := by
    simp only [List.find?_eq_none, Bool.not_eq_true]
  rw [← noneLacks, checkProgram_eq]
  cases (program.flatMap Instruction.ends).find? topology.lacks <;> simp [verdict]

/-- For a declared topology, a program is valid if all its addresses are null or buffers. -/
theorem checkProgram_eq_ok_iff_allows (declared : topology.Declared) :
    checkProgram topology program = .ok () ↔
      ∀ place ∈ program.flatMap Instruction.ends, topology.Allows place := by
  simp only [checkProgram_eq_ok_iff, ← Bool.not_eq_true, declared.lacks_iff, not_not]

/-- The first address that is neither null nor a buffer is what validation reports. -/
theorem checkProgram_error (declared : topology.Declared) {before after : List (Address × Side)}
    {place : Address × Side} (split : program.flatMap Instruction.ends = before ++ place :: after)
    (earlier : ∀ other ∈ before, topology.Allows other) (missing : ¬topology.Allows place) :
    checkProgram topology program = .error (.unknownBuffer place.1) := by
  have isFirst : (before ++ place :: after).find? topology.lacks = some place := by
    refine List.find?_eq_some_iff_append.mpr
      ⟨declared.lacks_iff.mpr missing, before, after, rfl, ?_⟩
    intro other member
    have found := earlier other member
    simpa using mt declared.lacks_iff.mp (not_not.mpr found)
  rw [checkProgram_eq, split, isFirst]
  rfl

/-- An image is validated by its program. -/
theorem validate_eq {image : Image} (reads : image.program = .ok program) (topology : Topology) :
    image.validate topology = checkProgram topology program := by
  rw [validate, reads]
  rfl

end Image
end MoveMachine
