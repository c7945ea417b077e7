import MoveMachine.Console.Command
import MoveMachine.Proofs.Image

/-!
# Packing what was unpacked

Bytes are an image if they are whole records with codes of instructions
(`Image.ofBytes_eq_ok_iff`); otherwise the report names their number
(`Image.ofBytes_ragged`) or the first record with another code
(`Image.ofBytes_invalidCode`). Reading a record ignores the bytes that its form does not
use, so packing the program of an image again brings the image into its canonical form
(`Image.repack_eq_ok_iff`): the unused bytes of a move become zero, and the destination
of a jump becomes null. An image of a program has this form, so packing a second time
changes nothing.

Since the image of a program reads back as the program, running the image that
assembling a text has written is running the text
(`Console.Command.simulate_image`).
-/

set_option autoImplicit false

namespace MoveMachine

/-! ## Bytes -/

theorem ofLittleEndian_lt (bytes : List Byte) :
    ofLittleEndian bytes < Nat.pow 256 bytes.length := by
  induction bytes with
  | nil => decide
  | cons byte higher ih =>
    have digit := byte.toNat_lt
    have range : Nat.pow 256 (higher.length + 1) = 256 * Nat.pow 256 higher.length :=
      Nat.mul_comm _ _
    rw [ofLittleEndian, List.length_cons, range]
    omega

/-- Writing the number that bytes stand for gives the bytes back. -/
theorem littleEndian_ofLittleEndian (bytes : List Byte) :
    littleEndian bytes.length (ofLittleEndian bytes) = bytes := by
  induction bytes with
  | nil => rfl
  | cons byte higher ih =>
    have digit := byte.toNat_lt
    have low : (byte.toNat + 256 * ofLittleEndian higher) % 256 = byte.toNat := by omega
    have high : (byte.toNat + 256 * ofLittleEndian higher) / 256 = ofLittleEndian higher := by omega
    rw [List.length_cons, littleEndian, ofLittleEndian, low, high, ih, UInt8.ofNat_toNat]

theorem Word.bytes_ofBytes {bytes : List Byte} (size : bytes.length = 8) :
    (Word.ofBytes bytes).bytes = bytes := by
  have bounded := ofLittleEndian_lt bytes
  have same := littleEndian_ofLittleEndian bytes
  rw [size] at bounded same
  have small : ofLittleEndian bytes < UInt64.size := bounded
  rw [Word.bytes, Word.ofBytes, Word.toNat_ofNat, Nat.mod_eq_of_lt small, same]

/-! ## Records -/

namespace Instruction

/-- What a byte of a record becomes when the record of a code is read and written again. -/
def canonicalByte (code offset : Nat) (byte : Byte) : Byte :=
  if code = Form.move.code ∧ 6 ≤ offset ∧ offset < 12 then 0
  else if code = Form.jump.code ∧ 12 ≤ offset then 255
  else byte

def canonicalRecord (record : List Byte) : List Byte :=
  record.mapIdx (canonicalByte (recordCode record))

/-- A record that was read is written in its canonical form. -/
theorem record_of_ofRecord? {bytes : List Byte} {instruction : Instruction}
    (size : bytes.length = 14) (reads : ofRecord? bytes = some instruction) :
    instruction.record = canonicalRecord bytes := by
  match bytes, size with
  | [b₀, b₁, b₂, b₃, b₄, b₅, b₆, b₇, b₈, b₉, b₁₀, b₁₁, b₁₂, b₁₃], _ =>
    obtain ⟨form, isForm, rfl⟩ := Option.map_eq_some_iff.mp reads
    rw [Form.ofCode?_eq_some_iff] at isForm
    have code : littleEndian 4 form.code = [b₀, b₁, b₂, b₃] := by
      rw [isForm]
      exact littleEndian_ofLittleEndian [b₀, b₁, b₂, b₃]
    have payload : (Word.ofBytes [b₄, b₅, b₆, b₇, b₈, b₉, b₁₀, b₁₁]).bytes =
        [b₄, b₅, b₆, b₇, b₈, b₉, b₁₀, b₁₁] := Word.bytes_ofBytes rfl
    rw [canonicalRecord, ← isForm]
    cases form with
    | move =>
      show littleEndian 4 Form.move.code ++ [b₄, b₅, 0, 0, 0, 0, 0, 0] ++ [b₁₂, b₁₃] = _
      rw [code]
      simp [List.mapIdx_cons, canonicalByte, Form.code]
    | immediate =>
      show littleEndian 4 Form.immediate.code ++
        (Word.ofBytes [b₄, b₅, b₆, b₇, b₈, b₉, b₁₀, b₁₁]).bytes ++ [b₁₂, b₁₃] = _
      rw [code, payload]
      simp [List.mapIdx_cons, canonicalByte, Form.code]
    | jump =>
      show littleEndian 4 Form.jump.code ++
        (Word.ofBytes [b₄, b₅, b₆, b₇, b₈, b₉, b₁₀, b₁₁]).bytes ++ [255, 255] = _
      rw [code, payload]
      simp [List.mapIdx_cons, canonicalByte, Form.code]

/-- A record is that of an instruction if its code is that of a form. -/
theorem isSome_ofRecord?_iff {bytes : List Byte} :
    (ofRecord? bytes).isSome = true ↔ recordCode bytes ∈ [1, 2, 3] := by
  have codes : Form.all.map Form.code = [1, 2, 3] := rfl
  rw [ofRecord?, Option.isSome_map, Form.ofCode?, List.find?_isSome, ← codes]
  simp only [List.mem_map, beq_iff_eq]

end Instruction

/-! ## Consecutive records -/

namespace Image

open Instruction

variable {bytes : List Byte}

theorem records_eq (count : Nat) (bytes : List Byte) :
    records count bytes =
      (List.range count).map fun index => (bytes.drop (recordSize * index)).take recordSize := by
  induction count generalizing bytes with
  | zero => rfl
  | succ count ih =>
    rw [records, ih, List.range_succ_eq_map, List.map_cons, List.map_map, Nat.mul_zero,
      List.drop_zero]
    refine congrArg _ (List.map_congr_left fun index _ => ?_)
    rw [Function.comp, List.drop_drop, Nat.mul_succ, Nat.add_comm]

theorem length_of_mem_records {count : Nat} (whole : bytes.length = count * recordSize)
    {record : List Byte} (member : record ∈ records count bytes) : record.length = recordSize := by
  rw [records_eq] at member
  obtain ⟨index, inRange, rfl⟩ := List.mem_map.mp member
  rw [List.mem_range] at inRange
  rw [List.length_take, List.length_drop, whole]
  simp only [recordSize]
  omega

/-- Records that are those of instructions are read, and written again in their canonical form. -/
theorem decodeFrom_canonical {records : List (List Byte)}
    (sizes : ∀ record ∈ records, record.length = recordSize)
    (readable : ∀ record ∈ records, recordCode record ∈ [1, 2, 3]) (index : Nat) :
    ∃ program, decodeFrom index records = .ok program ∧
      program.flatMap record = records.flatMap canonicalRecord := by
  induction records generalizing index with
  | nil => exact ⟨[], rfl, rfl⟩
  | cons first later ih =>
    rw [List.forall_mem_cons] at sizes readable
    obtain ⟨instruction, reads⟩ := Option.isSome_iff_exists.mp
      (isSome_ofRecord?_iff.mpr readable.1)
    obtain ⟨program, decodes, packs⟩ := ih sizes.2 readable.2 (index + 1)
    refine ⟨instruction :: program, ?_, ?_⟩
    · simp [decodeFrom, reads, decodes, Except.map]
    · rw [List.flatMap_cons, List.flatMap_cons, packs, record_of_ofRecord? sizes.1 reads]

/-- The first record that is that of no instruction is what reading reports. -/
theorem decodeFrom_error {before after : List (List Byte)} {record : List Byte}
    (earlier : ∀ other ∈ before, recordCode other ∈ [1, 2, 3])
    (unreadable : recordCode record ∉ [1, 2, 3]) (index : Nat) :
    decodeFrom index (before ++ record :: after) =
      .error (.invalidImage (.invalidCode (index + before.length) (recordCode record))) := by
  induction before generalizing index with
  | nil =>
    have noInstruction : ofRecord? record = none := by
      rw [← Option.not_isSome_iff_eq_none, isSome_ofRecord?_iff]
      exact unreadable
    simp [decodeFrom, noInstruction]
  | cons first before ih =>
    rw [List.forall_mem_cons] at earlier
    obtain ⟨instruction, reads⟩ := Option.isSome_iff_exists.mp
      (isSome_ofRecord?_iff.mpr earlier.1)
    have place : index + 1 + before.length = index + (before.length + 1) := by omega
    simp [decodeFrom, reads, ih earlier.2, Except.map, place]

/-! ## Which bytes are an image -/

/-- The code of the record with an index. -/
def codeAt (bytes : List Byte) (index : Nat) : Nat :=
  recordCode (bytes.drop (recordSize * index))

/-- Whole records with codes of instructions. -/
structure WellFormed (bytes : List Byte) : Prop where
  whole : bytes.length % recordSize = 0
  codes : ∀ index < bytes.length / recordSize, codeAt bytes index ∈ [1, 2, 3]

theorem recordCode_take (bytes : List Byte) :
    recordCode (bytes.take recordSize) = recordCode bytes := by
  rw [recordCode, recordCode, List.take_take]
  rfl

theorem forall_mem_records_iff {count : Nat} :
    (∀ record ∈ records count bytes, recordCode record ∈ [1, 2, 3]) ↔
      ∀ index < count, codeAt bytes index ∈ [1, 2, 3] := by
  simp only [records_eq, List.forall_mem_map, List.mem_range, recordCode_take, codeAt]

theorem ofBytes_of_whole (whole : bytes.length % recordSize = 0) :
    ofBytes bytes = (Image.mk bytes).program.map fun _ => ⟨bytes⟩ := by
  rw [ofBytes, if_pos whole]

/-- The error about bytes that are no whole number of records. -/
theorem ofBytes_ragged (ragged : bytes.length % recordSize ≠ 0) :
    ofBytes bytes = .error (.invalidImage (.ragged bytes.length)) := by
  rw [ofBytes, if_neg ragged]

/-- The error about bytes of which a record is that of no instruction. -/
theorem ofBytes_invalidCode (whole : bytes.length % recordSize = 0) {index : Nat}
    (inside : index < bytes.length / recordSize)
    (earlier : ∀ other < index, codeAt bytes other ∈ [1, 2, 3])
    (unreadable : codeAt bytes index ∉ [1, 2, 3]) :
    ofBytes bytes = .error (.invalidImage (.invalidCode index (codeAt bytes index))) := by
  let recordAt index := (bytes.drop (recordSize * index)).take recordSize
  obtain ⟨after, split⟩ : ∃ after, records (bytes.length / recordSize) bytes =
      records index bytes ++ recordAt index :: after := by
    obtain ⟨rest, count⟩ := Nat.exists_eq_add_of_lt inside
    refine ⟨(List.range rest).map fun place => recordAt (index + (place + 1)), ?_⟩
    rw [records_eq, records_eq, count, Nat.add_assoc, List.range_add, List.map_append,
      List.range_succ_eq_map]
    simp [recordAt, Function.comp_def]
  have code : recordCode (recordAt index) = codeAt bytes index := recordCode_take _
  have place : 0 + (records index bytes).length = index := by simp [records_eq]
  have readable := forall_mem_records_iff.mpr earlier
  rw [← code] at unreadable
  rw [ofBytes_of_whole whole, Image.program, size, split, decodeFrom_error readable unreadable,
    place, code]
  rfl

/-! ## Canonical form -/

/-- The bytes of an image with each record in its canonical form. -/
def canonical (bytes : List Byte) : List Byte :=
  bytes.mapIdx fun place =>
    canonicalByte (codeAt bytes (place / recordSize)) (place % recordSize)

/-- Every byte that the form of its record does not use is the one that packing puts there. -/
structure IsCanonical (bytes : List Byte) : Prop where
  move : ∀ place byte, bytes[place]? = some byte → codeAt bytes (place / recordSize) = 1 →
    6 ≤ place % recordSize → place % recordSize < 12 → byte = 0
  jump : ∀ place byte, bytes[place]? = some byte → codeAt bytes (place / recordSize) = 3 →
    12 ≤ place % recordSize → byte = 255

theorem canonical_append {first later : List Byte} (size : first.length = recordSize) :
    canonical (first ++ later) = canonicalRecord first ++ canonical later := by
  rw [canonical, List.mapIdx_append]
  congr 1
  · refine List.mapIdx_eq_mapIdx_iff.mpr fun place inside => ?_
    rw [size] at inside
    rw [Nat.div_eq_of_lt inside, Nat.mod_eq_of_lt inside, codeAt, Nat.mul_zero, List.drop_zero,
      ← recordCode_take, List.take_left' size]
  · refine List.mapIdx_eq_mapIdx_iff.mpr fun place _ => ?_
    have positive : 0 < recordSize := by decide
    rw [size, Nat.add_mod_right, Nat.add_div_right place positive, codeAt, codeAt, Nat.mul_succ,
      Nat.add_comm, ← List.drop_drop, List.drop_left' size]

/-- The canonical form is that of each record. -/
theorem canonical_eq {count : Nat} (whole : bytes.length = count * recordSize) :
    canonical bytes = (records count bytes).flatMap canonicalRecord := by
  induction count generalizing bytes with
  | zero =>
    rw [Nat.zero_mul, List.length_eq_zero_iff] at whole
    rw [whole]
    rfl
  | succ count ih =>
    have size : (bytes.take recordSize).length = recordSize := by
      rw [List.length_take, whole, Nat.succ_mul]
      omega
    have rest : (bytes.drop recordSize).length = count * recordSize := by
      rw [List.length_drop, whole, Nat.succ_mul, Nat.add_sub_cancel]
    rw [records, List.flatMap_cons, ← ih rest, ← canonical_append size, List.take_append_drop]

theorem canonical_eq_self_iff : canonical bytes = bytes ↔ IsCanonical bytes := by
  have same : canonical bytes = bytes ↔ ∀ place byte, bytes[place]? = some byte →
      canonicalByte (codeAt bytes (place / recordSize)) (place % recordSize) byte = byte := by
    rw [canonical, List.mapIdx_eq_iff]
    refine forall_congr' fun place => ?_
    cases bytes[place]? <;> simp [eq_comm]
  rw [same]
  constructor
  · intro unchanged
    constructor
    · intro place byte isByte isMove start stop
      simpa [canonicalByte, isMove, start, stop, Form.code, eq_comm] using unchanged place byte isByte
    · intro place byte isByte isJump start
      simpa [canonicalByte, isJump, start, Form.code, eq_comm] using unchanged place byte isByte
  · intro isCanonical place byte isByte
    rw [canonicalByte]
    split
    · next isMove => exact (isCanonical.move place byte isByte isMove.1 isMove.2.1 isMove.2.2).symm
    · split
      · next isJump => exact (isCanonical.jump place byte isByte isJump.1 isJump.2).symm
      · rfl

/-! ## Packing again -/

/-- The bytes that packing the program of an image again gives. -/
def repack (bytes : List Byte) : Except Fault (List Byte) := do
  return (ofProgram (← (← ofBytes bytes).program)).bytes

/-- Whole records with codes of instructions are an image. Packing its program again gives the
canonical form of the bytes. -/
theorem WellFormed.unpacks (wellFormed : WellFormed bytes) :
    ofBytes bytes = .ok ⟨bytes⟩ ∧
      ∃ program, (Image.mk bytes).program = .ok program ∧
        (ofProgram program).bytes = canonical bytes := by
  have whole : bytes.length = bytes.length / recordSize * recordSize :=
    (Nat.div_mul_cancel (Nat.dvd_of_mod_eq_zero wellFormed.whole)).symm
  obtain ⟨program, decodes, packs⟩ := decodeFrom_canonical
    (fun _ => length_of_mem_records whole) (forall_mem_records_iff.mpr wellFormed.codes) 0
  have reads : (Image.mk bytes).program = .ok program := decodes
  refine ⟨?_, program, reads, packs.trans (canonical_eq whole).symm⟩
  rw [ofBytes_of_whole wellFormed.whole, reads]
  rfl

/-- Bytes are an image exactly if they are whole records with codes of instructions. -/
theorem ofBytes_eq_ok_iff {image : Image} :
    ofBytes bytes = .ok image ↔ WellFormed bytes ∧ image = ⟨bytes⟩ := by
  constructor
  · intro accepted
    have whole : bytes.length % recordSize = 0 := by
      by_contra ragged
      simp [ofBytes_ragged ragged] at accepted
    have wellFormed : WellFormed bytes := by
      refine ⟨whole, fun index inside => ?_⟩
      -- The first of the other codes would have been reported.
      induction index using Nat.strongRecOn with
      | _ index ih =>
        by_contra unreadable
        have earlier other before := ih other before (Nat.lt_trans before inside)
        simp [ofBytes_invalidCode whole inside earlier unreadable] at accepted
    rw [wellFormed.unpacks.1] at accepted
    exact ⟨wellFormed, (Except.ok.inj accepted).symm⟩
  · rintro ⟨wellFormed, rfl⟩
    exact wellFormed.unpacks.1

/-- Packing again succeeds for an image, and gives its canonical form. -/
theorem repack_eq_ok_iff {packed : List Byte} :
    repack bytes = .ok packed ↔ WellFormed bytes ∧ packed = canonical bytes := by
  constructor
  · intro repacks
    cases accepted : ofBytes bytes with
    | error fault => simp [repack, accepted, bind, Except.bind] at repacks
    | ok image =>
      obtain ⟨wellFormed, rfl⟩ := ofBytes_eq_ok_iff.mp accepted
      obtain ⟨-, program, reads, packs⟩ := wellFormed.unpacks
      have same : (ofProgram program).bytes = packed := by
        simpa [repack, accepted, reads, bind, Except.bind, pure, Except.pure] using repacks
      exact ⟨wellFormed, same.symm.trans packs⟩
  · rintro ⟨wellFormed, rfl⟩
    obtain ⟨accepted, program, reads, packs⟩ := wellFormed.unpacks
    rw [← packs]
    simp [repack, accepted, reads, bind, Except.bind, pure, Except.pure]

theorem repack_ofProgram (program : List Instruction) :
    repack (ofProgram program).bytes = .ok (ofProgram program).bytes := by
  simp [repack, ofBytes_ofProgram, program_ofProgram, bind, Except.bind, pure, Except.pure]

/-- Packing again a second time changes nothing. -/
theorem repack_bind_repack (bytes : List Byte) : repack bytes >>= repack = repack bytes := by
  cases repacks : repack bytes with
  | error fault => rfl
  | ok packed =>
    obtain ⟨wellFormed, rfl⟩ := repack_eq_ok_iff.mp repacks
    obtain ⟨-, program, -, packs⟩ := wellFormed.unpacks
    rw [← packs]
    exact repack_ofProgram program

end Image

/-! ## Image files -/

/-- Bytes that are written to a file are read from it. -/
theorem toList_toByteArray (bytes : List Byte) : bytes.toByteArray.toList = bytes := by
  have loop : ∀ done todo, done ++ todo = bytes →
      ByteArray.toList.loop bytes.toByteArray done.length done.reverse = bytes := by
    intro done todo split
    induction todo generalizing done with
    | nil =>
      rw [ByteArray.toList.loop.eq_def, List.size_toByteArray, ← split]
      simp
    | cons byte todo ih =>
      have inside : done.length < bytes.length := by simp [← split]
      have next : bytes.toByteArray.get! done.length = byte := by
        simp [← split, ByteArray.get!]
      rw [ByteArray.toList.loop.eq_def, List.size_toByteArray, if_pos inside, next]
      simpa using ih (done ++ [byte]) (by simpa using split)
  exact loop [] bytes rfl

namespace Console.Command

variable {read later : ReadFile} {write : String → Except FileTrouble Unit}
  {topologyPath programPath output : String}

/-- Assembling to a file succeeds if the program assembles and the file can be written, which then
holds the image of the program. -/
theorem assemble_failure_eq_none_iff :
    (execute read write (.assemble topologyPath programPath (some output))).failure = none ↔
      ∃ program, programOf read topologyPath programPath = .ok program ∧
        write output = .ok () ∧
        (execute read write (.assemble topologyPath programPath (some output))).written =
          some (output, (Image.ofProgram program).bytes) := by
  cases assembles : programOf read topologyPath programPath with
  | error error => simp [execute, assembleTo, assembles, Response.failed]
  | ok program =>
    cases writes : write output with
    | error trouble => simp [execute, assembleTo, assembles, writes, Response.failed]
    | ok nothing => simp [execute, assembleTo, assembles, writes]

/-- A program has been assembled for the topology in its file. -/
theorem programOf_eq_ok_iff {program : List Instruction} :
    programOf read topologyPath programPath = .ok program ↔
      ∃ topology, Topology.ofFile read topologyPath = .ok topology ∧
        assembleFile topology read programPath = .ok program := by
  rw [programOf]
  cases Topology.ofFile read topologyPath <;> simp [bind, Except.bind]

theorem ofFile_congr (same : later topologyPath = read topologyPath) :
    Topology.ofFile later topologyPath = Topology.ofFile read topologyPath := by
  rw [Topology.ofFile, Topology.ofFile, readText, readText, same]

/-- The image in a file that holds the image of a program. -/
theorem imageOfFile_ofProgram {program : List Instruction}
    (holds : read output = .ok (Image.ofProgram program).bytes.toByteArray) :
    imageOfFile read output = .ok (Image.ofProgram program) := by
  simp [imageOfFile, holds, toList_toByteArray, Image.ofBytes_ofProgram, Except.mapError, bind,
    Except.bind]

/-- Running the image of a program is running its text. -/
theorem simulate_image {program : List Instruction}
    (assembles : programOf read topologyPath programPath = .ok program)
    (sameTopology : later topologyPath = read topologyPath)
    (holds : later output = .ok (Image.ofProgram program).bytes.toByteArray)
    (options : RunOptions) :
    simulate later topologyPath output { options with image := true } =
      simulate read topologyPath programPath { options with image := false } := by
  obtain ⟨topology, isTopology, isProgram⟩ := programOf_eq_ok_iff.mp assembles
  have isLaterTopology := (ofFile_congr sameTopology).trans isTopology
  have isImage := imageOfFile_ofProgram holds
  have machines : machineOf later topologyPath output { options with image := true } =
      machineOf read topologyPath programPath { options with image := false } := by
    simp [machineOf, isTopology, isLaterTopology, isImage, isProgram, configure, Except.mapError,
      bind, Except.bind, Functor.map, Except.map]
  rw [simulate, simulate, machines]

end Console.Command

namespace Image

open Console

/-- Images round-trip. The bytes of a program are an image, of as many instructions, which reads
back as the program. Bytes are an image exactly if they are whole records with the codes 1, 2 and
3; otherwise their number is reported, or else the first record with another code together with
this code. Packing what an image reads as again gives its canonical form, so that it changes
nothing exactly if all unused bytes already are as packing writes them, and a second time never
does. So after assembling to a file, running the image in this file is running the text, whatever
the options. -/
theorem images_round_trip :
    (∀ program : List Instruction,
      ofBytes (ofProgram program).bytes = .ok (ofProgram program) ∧
      (ofProgram program).size = program.length ∧
      (ofProgram program).program = .ok program) ∧
    (∀ bytes image, ofBytes bytes = .ok image ↔ WellFormed bytes ∧ image = ⟨bytes⟩) ∧
    (∀ bytes : List Byte, bytes.length % 14 ≠ 0 →
      ofBytes bytes = .error (.invalidImage (.ragged bytes.length))) ∧
    (∀ bytes index, bytes.length % 14 = 0 → index < bytes.length / 14 →
      (∀ other < index, codeAt bytes other ∈ [1, 2, 3]) → codeAt bytes index ∉ [1, 2, 3] →
      ofBytes bytes = .error (.invalidImage (.invalidCode index (codeAt bytes index)))) ∧
    (∀ bytes packed, repack bytes = .ok packed ↔ WellFormed bytes ∧ packed = canonical bytes) ∧
    (∀ bytes, WellFormed bytes → (repack bytes = .ok bytes ↔ IsCanonical bytes)) ∧
    (∀ bytes, repack bytes >>= repack = repack bytes) ∧
    ∀ read write topologyPath programPath output,
      let assembled := Command.execute read write (.assemble topologyPath programPath (some output))
      assembled.failure = none →
      ∃ bytes, assembled.written = some (output, bytes) ∧
        ∀ (later : ReadFile) (options : RunOptions),
          later topologyPath = read topologyPath → later output = .ok bytes.toByteArray →
          Command.execute later write (.run topologyPath output { options with image := true }) =
          Command.execute read write
            (.run topologyPath programPath { options with image := false }) := by
  refine ⟨?_, ?_, ?_, ?_, ?_, ?_, repack_bind_repack, ?_⟩
  · exact fun program => ⟨ofBytes_ofProgram program, size_ofProgram program,
      program_ofProgram program⟩
  · exact fun bytes image => ofBytes_eq_ok_iff
  · exact fun bytes => ofBytes_ragged
  · exact fun bytes index whole => ofBytes_invalidCode whole
  · exact fun bytes packed => repack_eq_ok_iff
  · intro bytes wellFormed
    rw [repack_eq_ok_iff, eq_comm, canonical_eq_self_iff]
    exact and_iff_right wellFormed
  · intro read write topologyPath programPath output assembled succeeds
    obtain ⟨program, assembles, -, written⟩ := Command.assemble_failure_eq_none_iff.mp succeeds
    refine ⟨_, written, fun later options sameTopology holds => ?_⟩
    exact Command.simulate_image assembles sameTopology holds options

/-- A move with stray bytes behind its source, and a jump with a destination. -/
def stray : List Byte :=
  [1, 0, 0, 0, 1, 0, 7, 7, 7, 7, 7, 7, 0, 1] ++ [3, 0, 0, 0, 2, 0, 0, 0, 0, 0, 0, 0, 5, 6]

/-- The files of a relay and of a program that drops what it has. -/
def relayFiles : ReadFile := fun path =>
  if path = "relay.toml" then .ok <| String.toUTF8 <|
    "[processor]\nname = \"relay\"\nbuffer_depth = 1\n" ++
    "[[interconnect]]\nname = \"net\"\nunit_count = 2\n" ++
    "[[unit]]\nname = \"cu\"\ntype = \"cu\"\nnumber = 0\n" ++
    "[[unit]]\nname = \"rob\"\ntype = \"rob\"\nnumber = 1\n"
  else if path = "relay.scad" then .ok "rob@out -> null".toUTF8
  else .error .missing

theorem stray_images_round_trip :
    repack stray = .ok (canonical stray) ∧ repack stray ≠ .ok stray ∧
    repack (canonical stray) = .ok (canonical stray) ∧
    ofBytes (stray ++ [2]) = .error (.invalidImage (.ragged 29)) ∧
    ofBytes (stray ++ List.replicate 14 0) = .error (.invalidImage (.invalidCode 2 0)) ∧
    ∃ bytes, (Command.execute relayFiles (fun _ => .ok ())
        (.assemble "relay.toml" "relay.scad" (some "relay.img"))).written =
          some ("relay.img", bytes) ∧
      ∀ options : RunOptions,
        Command.execute
            (fun path => if path = "relay.img" then .ok bytes.toByteArray else relayFiles path)
            (fun _ => .ok ()) (.run "relay.toml" "relay.img" { options with image := true }) =
          Command.execute relayFiles (fun _ => .ok ())
            (.run "relay.toml" "relay.scad" { options with image := false }) := by
  obtain ⟨-, -, ragged, unreadable, repacks, unchangedIff, twice, runs⟩ := images_round_trip
  have wellFormed : WellFormed stray := ⟨by decide, by decide⟩
  have packed := (repacks stray _).mpr ⟨wellFormed, rfl⟩
  have again := twice stray
  rw [packed] at again
  have succeeds : (Command.execute relayFiles (fun _ => .ok ())
      (.assemble "relay.toml" "relay.scad" (some "relay.img"))).failure = none :=
    Option.isNone_iff_eq_none.mp (by decide +kernel)
  obtain ⟨bytes, written, behaves⟩ := runs _ _ _ _ _ succeeds
  refine ⟨packed, ?_, again, ragged _ (by decide), ?_, bytes, written, ?_⟩
  · intro unchanged
    have isCanonical := (unchangedIff stray wellFormed).mp unchanged
    exact absurd (isCanonical.move 6 7 rfl (by decide) (by decide) (by decide)) (by decide)
  · exact unreadable _ 2 (by decide) (by decide) (by decide) (by decide)
  · exact fun options => behaves _ options (if_neg (by decide)) (if_pos rfl)

end Image
end MoveMachine
