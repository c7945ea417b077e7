import MoveMachine.Host
import MoveMachine.Proofs.Loading

/-!
# Operations of a host

Loading, writing and reading either do all that they are asked or refuse and leave
the machine as it was, and when they refuse can be told from the program and the size
of memory alone. Whatever a machine has been through, from a load on it is the machine
that would be there if it had been built anew with the contents of its memory
(`Machine.host_operations`).

The latter is because a session changes neither the shape of a machine nor the size of
its memory (`Machine.Session.keeps`), and apart from these only the contents of memory
outlive a load (`Machine.load_eq_of_keeps`).
-/

set_option autoImplicit false

namespace MoveMachine
namespace Machine

variable {topology : Topology} {config : Config} {built machine other : Machine} {image : Image}
  {program : List Instruction}

/-! ## Memory -/

/-- An overwritten memory has the new words in their range and the old ones around it. -/
theorem getElem?_overwrite {memory : Memory} {offset : Nat} {values : List Word}
    (fits : offset + values.length ≤ memory.size) (index : Nat) :
    (overwrite memory offset values)[index]? =
      if offset ≤ index ∧ index < offset + values.length then values[index - offset]?
      else memory[index]? := by
  induction values generalizing memory offset with
  | nil =>
    rw [overwrite, if_neg]
    rw [List.length_nil]
    omega
  | cons value later ih =>
    rw [List.length_cons] at fits ⊢
    rw [overwrite, ih (by rw [Array.size_setIfInBounds]; omega), Array.getElem?_setIfInBounds]
    rcases Nat.lt_trichotomy index offset with before | rfl | after
    · rw [if_neg (by omega), if_neg (by omega), if_neg (by omega)]
    · rw [if_neg (by omega), if_pos rfl, if_pos (by omega), if_pos (by omega), Nat.sub_self]
      rfl
    · have isLater : index - offset = index - (offset + 1) + 1 := by omega
      have sameRange : (offset + 1 ≤ index ∧ index < offset + 1 + later.length) ↔
          offset ≤ index ∧ index < offset + (later.length + 1) := by omega
      rw [isLater, List.getElem?_cons_succ, if_neg (Nat.ne_of_lt after)]
      simp only [sameRange]

/-- Overwriting all of a memory leaves nothing of it. -/
theorem overwrite_all {memory : Memory} (content : Memory) (same : content.size = memory.size) :
    overwrite memory 0 content.toList = content := by
  have length : content.toList.length = memory.size := same
  apply Array.ext_getElem?
  intro index
  rw [getElem?_overwrite (by omega), Nat.sub_zero, Array.getElem?_toList]
  split
  · rfl
  · rw [Array.getElem?_eq_none (by omega), Array.getElem?_eq_none (by omega)]

theorem readMemory_eq (machine : Machine) (offset length : Nat) :
    machine.readMemory offset length =
      if offset + length ≤ machine.shared.memory.size then
        .ok ((machine.shared.memory.toList.drop offset).take length)
      else .error (.memoryRange offset length machine.shared.memory.size) := by
  have stored : (machine.shared.memory.extract offset (offset + length)).toList =
      (machine.shared.memory.toList.drop offset).take length := by simp
  rw [readMemory, checkRange, stored]
  split <;> rfl

/-! ## What a session does not change -/

/-- Whether two machines are of one shape. -/
structure Keeps (machine other : Machine) : Prop where
  topology : other.topology = machine.topology
  config : other.config = machine.config
  units : other.units.map ProcessingUnit.reset = machine.units.map ProcessingUnit.reset
  capacity : other.shared.interconnect.capacity = machine.shared.interconnect.capacity
  memory : other.shared.memory.size = machine.shared.memory.size

theorem Keeps.symm (keeps : machine.Keeps other) : other.Keeps machine where
  topology := keeps.topology.symm
  config := keeps.config.symm
  units := keeps.units.symm
  capacity := keeps.capacity.symm
  memory := keeps.memory.symm

theorem Keeps.trans {middle : Machine} (first : machine.Keeps middle)
    (second : middle.Keeps other) : machine.Keeps other where
  topology := second.topology.trans first.topology
  config := second.config.trans first.config
  units := second.units.trans first.units
  capacity := second.capacity.trans first.capacity
  memory := second.memory.trans first.memory

theorem keeps_load {loaded : Machine} (loads : machine.load image = .ok loaded) :
    machine.Keeps loaded := by
  obtain ⟨program, -, -, rfl⟩ := load_spec loads
  refine ⟨rfl, rfl, ?_, rfl, rfl⟩
  have again : ProcessingUnit.reset ∘ ProcessingUnit.reset = ProcessingUnit.reset :=
    funext ProcessingUnit.reset_reset
  exact (List.map_map).trans (by rw [again])

theorem keeps_write {after : Machine} {offset : Nat} {values : List Word}
    (writes : machine.writeMemory offset values = .ok after) : machine.Keeps after := by
  obtain ⟨memory, size, rfl⟩ := writeMemory_spec writes
  exact ⟨rfl, rfl, rfl, rfl, size⟩

theorem Fresh.keeps {loaded : Machine} (fresh : Fresh topology program loaded)
    (runs : Runs loaded machine) : loaded.Keeps machine := by
  obtain ⟨same, history, evolves⟩ := fresh.evolves runs
  exact ⟨same.topology, same.config, same.units, evolves.capacity, evolves.memory_size⟩

/-- A machine keeps its shape throughout a session. -/
theorem Session.keeps (builds : ofTopology topology config = .ok built)
    (session : Session built machine) : built.Keeps machine := by
  induction session with
  | built => exact ⟨rfl, rfl, rfl, rfl, rfl⟩
  | load _ loads ih => exact ih.trans (keeps_load loads)
  | @round machine earlier ready ih =>
    rcases (earlier.follows builds).2 with ⟨none, -⟩ | ⟨program, loaded, fresh, runs⟩
    · rw [isReady, none] at ready
      cases ready
    · exact ih.trans ((fresh.keeps runs).symm.trans (fresh.keeps runs.round))
  | write _ writes ih => exact ih.trans (keeps_write writes)

theorem Session.memory_size (builds : ofTopology topology config = .ok built)
    (session : Session built machine) : machine.shared.memory.size = config.memoryWords := by
  obtain ⟨-, -, units, -, -, -, -, -, zeros⟩ := ofTopology_spec builds
  rw [(session.keeps builds).memory, zeros, Array.size_replicate]

/-! ## Loading -/

/-- Of all that happened to a machine a load keeps the contents of memory only. -/
theorem Keeps.load_eq (keeps : machine.Keeps other)
    (memory : other.shared.memory = machine.shared.memory) (image : Image) :
    other.load image = machine.load image := by
  have shape (program : List Instruction) :
      { other.reset with program := some program } =
        { machine.reset with program := some program } := by
    simp [reset, Interconnect.reset, keeps.topology, keeps.config, keeps.units, keeps.capacity,
      memory]
  simp only [load, keeps.topology, shape]

/-- A machine of a topology refuses the first address that is neither null nor a buffer. -/
theorem Session.load_error (declared : topology.Declared)
    (builds : ofTopology topology config = .ok built) (session : Session built machine)
    (reads : image.program = .ok program) {before after : List (Address × Side)}
    {place : Address × Side} (split : program.flatMap Instruction.ends = before ++ place :: after)
    (earlier : ∀ other ∈ before, topology.Allows other) (missing : ¬topology.Allows place) :
    machine.load image = .error (.unknownBuffer place.1) := by
  rw [load_eq reads, (session.follows builds).1.isOf,
    Image.checkProgram_error declared split earlier missing]
  rfl

/-- A machine that is built anew can be given the contents of another one's memory. -/
theorem Session.refill (builds : ofTopology topology config = .ok built)
    (session : Session built machine) :
    built.writeMemory 0 machine.shared.memory.toList =
      .ok { built with shared := { built.shared with memory := machine.shared.memory } } := by
  have same := (session.keeps builds).memory
  rw [writeMemory_eq, overwrite_all _ same, if_pos]
  rw [Nat.zero_add]
  exact Nat.le_of_eq same

/-! ## Requests -/

/-- A change that fails is not made. -/
theorem commit_of_error {result : Except Fault Machine} {fault : Fault}
    (fails : (machine.commit result).2 = .error fault) : (machine.commit result).1 = machine := by
  cases result with
  | ok changed => cases fails
  | error _ => rfl

theorem commit_done_iff {result : Except Fault Machine} :
    (machine.commit result).2 = .ok .done ↔ ∃ changed, result = .ok changed := by
  cases result <;> simp [commit]

/-- What a host asks for is part of a session. -/
theorem Session.serve (builds : ofTopology topology config = .ok built)
    (session : Session built machine) (request : Request) :
    Session built (machine.serve request).1 := by
  cases request with
  | load image =>
    cases loads : machine.load image with
    | error fault => simpa [Machine.serve, loads, commit] using session
    | ok loaded => simpa [Machine.serve, loads, commit] using session.load loads
  | write offset values =>
    cases writes : machine.writeMemory offset values with
    | error fault => simpa [Machine.serve, writes, commit] using session
    | ok after => simpa [Machine.serve, writes, commit] using session.write writes
  | read offset length => exact session
  | run => exact session.run builds

theorem Session.serveAll (builds : ofTopology topology config = .ok built)
    (session : Session built machine) (requests : List Request) :
    Session built (machine.serveAll requests).1 := by
  induction requests generalizing machine with
  | nil => exact session
  | cons request later ih => exact ih (session.serve builds request)

/-- Host operations do all or nothing, and a load forgets everything but the contents of memory. At
any time in a session

* a load succeeds exactly if all addresses in the program are null or buffers, and otherwise
  reports the first that is neither,
* writing and reading succeed exactly if the range is inside memory; what is read are the words
  stored there,
* unless it is a run, a request that fails leaves the machine as it was,
* a write changes the words in its range and nothing else, and
* from a load on, everything is as on a machine built anew with the same contents of memory. -/
theorem host_operations (declared : topology.Declared)
    (builds : ofTopology topology config = .ok built) (session : Session built machine) :
    (∀ image program, image.program = .ok program →
      ((machine.serve (.load image)).2 = .ok .done ↔
        ∀ place ∈ program.flatMap Instruction.ends, topology.Allows place) ∧
      ∀ before place after, program.flatMap Instruction.ends = before ++ place :: after →
        (∀ earlier ∈ before, topology.Allows earlier) → ¬topology.Allows place →
          (machine.serve (.load image)).2 = .error (.unknownBuffer place.1)) ∧
    (∀ offset values, (machine.serve (.write offset values)).2 =
      if offset + values.length ≤ config.memoryWords then .ok .done
      else .error (.memoryRange offset values.length config.memoryWords)) ∧
    (∀ offset length, machine.serve (.read offset length) = (machine,
      if offset + length ≤ config.memoryWords then
        .ok (.words ((machine.shared.memory.toList.drop offset).take length))
      else .error (.memoryRange offset length config.memoryWords))) ∧
    (∀ request fault, request ≠ .run → (machine.serve request).2 = .error fault →
      (machine.serve request).1 = machine) ∧
    (∀ offset values, offset + values.length ≤ config.memoryWords → ∃ memory : Memory,
      (machine.serve (.write offset values)).1 =
          { machine with shared := { machine.shared with memory } } ∧
        memory.size = config.memoryWords ∧
        ∀ index, memory[index]? =
          if offset ≤ index ∧ index < offset + values.length then values[index - offset]?
          else machine.shared.memory[index]?) ∧
    ∃ refilled, built.serve (.write 0 machine.shared.memory.toList) = (refilled, .ok .done) ∧
      refilled.shared.memory = machine.shared.memory ∧
      ∀ image requests, (machine.serve (.load image)).2 = .ok .done →
        machine.serveAll (.load image :: requests) =
          refilled.serveAll (.load image :: requests) := by
  have size := session.memory_size builds
  refine ⟨?_, ?_, ?_, ?_, ?_, ?_⟩
  · intro image program reads
    refine ⟨?_, ?_⟩
    · rw [Machine.serve, commit_done_iff]
      exact session.exists_load_iff declared builds reads
    · intro before place after split earlier missing
      rw [Machine.serve, session.load_error declared builds reads split earlier missing]
      rfl
  · intro offset values
    rw [Machine.serve, writeMemory_eq, size]
    split <;> rfl
  · intro offset length
    rw [Machine.serve, readMemory_eq, size]
    split <;> rfl
  · intro request fault notRun fails
    cases request with
    | load image => exact commit_of_error fails
    | write offset values => exact commit_of_error fails
    | read offset length => rfl
    | run => exact absurd rfl notRun
  · intro offset values fits
    rw [← size] at fits ⊢
    refine ⟨overwrite machine.shared.memory offset values, ?_, size_overwrite _ _ _,
      getElem?_overwrite fits⟩
    rw [Machine.serve, writeMemory_eq, if_pos fits]
    rfl
  · refine ⟨{ built with shared := { built.shared with memory := machine.shared.memory } }, ?_, rfl,
      ?_⟩
    · rw [Machine.serve, session.refill builds]
      rfl
    · intro image requests loads
      obtain ⟨loaded, isLoaded⟩ := commit_done_iff.mp loads
      have keeps := (keeps_write (session.refill builds)).symm.trans (session.keeps builds)
      have sameLoad := (keeps.load_eq rfl image).symm.trans isLoaded
      simp only [Machine.serveAll, Machine.serve, isLoaded, sameLoad, commit]

theorem relay_host_operations :
    ∃ built used refilled : Machine,
      ofTopology (.relay ⟨1, by decide, by decide⟩) .default = .ok built ∧
      (built.serveAll
        [.load (.ofProgram Instruction.relayed), .write 3 [.ofNat 9], .run]).1 = used ∧
      (used.serve (.load (.ofProgram [.move ⟨5, 0⟩ ⟨6, 0⟩]))).2 = .error (.unknownBuffer ⟨5, 0⟩) ∧
      (used.serve (.write 255 [.ofNat 1, .ofNat 2])).2 = .error (.memoryRange 255 2 256) ∧
      built.serve (.write 0 used.shared.memory.toList) = (refilled, .ok .done) ∧
      used.serveAll [.load (.ofProgram Instruction.relayed), .run] =
        refilled.serveAll [.load (.ofProgram Instruction.relayed), .run] := by
  obtain ⟨built, -, builds, -⟩ := relay_completes (.inl rfl)
  have declared := Topology.declared_relay ⟨1, by decide, by decide⟩
  have session := (Session.built : Session built built).serveAll builds
    [.load (.ofProgram Instruction.relayed), .write 3 [.ofNat 9], .run]
  obtain ⟨loading, writing, -, -, -, refilled, refills, -, forgets⟩ :=
    host_operations declared builds session
  have missing : ¬(Topology.relay ⟨1, by decide, by decide⟩).Allows (⟨5, 0⟩, .output) :=
    declared.lacks_iff.mp (by decide)
  have loads := (loading _ _ Image.program_relayed).1.mpr
    ((Image.checkProgram_eq_ok_iff_allows declared).mp (by decide))
  exact ⟨built, _, refilled, builds, rfl,
    (loading _ _ (Image.program_ofProgram _)).2 [] _ _ rfl nofun missing, writing 255 _, refills,
    forgets _ _ loads⟩

end Machine
end MoveMachine
