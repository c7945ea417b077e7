import MoveMachine.Proofs.LabelResolution
import MoveMachine.Proofs.Image

/-!
# Whatever assembles can be loaded

The assembler finds the address of a buffer by names, and the validation of an image
looks an address up by the number of its unit. In a declared topology the two agree,
so whatever a text assembles to can be packed, unpacked, validated and loaded into a
machine of the topology, whatever the machine has been through
(`Assembly.assembled_loads`).

On the way it turns out what the addresses in an assembled program are: the
destination of a move to `null` is null, and every other address is a buffer
(`Assembly.Placed`).
-/

set_option autoImplicit false

namespace MoveMachine

/-! ## Addresses of moves -/

namespace Assembly

variable {topology : Topology} {source destination quoted : String} {line : Nat}

/-- What stands between parentheses is a constant. -/
theorem readRepeated_ok {inner : List Char} {malformed : Error} {unknown : String → Error}
    {read : Source} (reads : readRepeated inner malformed unknown = .ok read) :
    ∃ value, read = .constant value := by
  simp only [readRepeated] at reads
  split at reads
  · cases reads
  · split at reads
    · cases reads
    · split at reads
      · split at reads
        · cases reads
        · exact ⟨_, (Except.ok.inj reads).symm⟩
      · cases reads

theorem isBuffer_of_readPlain {address : Address}
    (reads : readPlain topology source quoted line = .ok (.output address)) :
    topology.IsBuffer address .output := by
  rw [readPlain] at reads
  split at reads
  · cases reads
  · split at reads
    · rename_i unit buffer named
      cases resolves : topology.resolve unit buffer .output with
      | error reason => simp [resolves] at reads
      | ok found =>
        simp only [resolves, Except.ok.injEq, Source.output.injEq] at reads
        exact Topology.isBuffer_of_resolve (reads ▸ resolves)
    · split at reads <;> cases reads

/-- A source with an address is an output. -/
theorem isBuffer_of_readSource {address : Address}
    (reads : readSource topology source quoted line = .ok (.output address)) :
    topology.IsBuffer address .output := by
  rw [readSource] at reads
  split at reads
  · split at reads <;> cases reads
  · split at reads
    · obtain ⟨value, isConstant⟩ := readRepeated_ok reads
      cases isConstant
    · exact isBuffer_of_readPlain reads

/-- The address that a source brings into an instruction. -/
def Source.ends : Source → List (Address × Side)
  | .output address => [(address, .output)]
  | .constant _ => []
  | .label _ => []

/-- The address that a destination brings into an instruction. -/
def Destination.ends : Destination → List (Address × Side)
  | .input address => [(address, .input)]
  | .programCounter => []
  | .nowhere => [(.null, .input)]

/-- The addresses in an instruction are those of its operands. -/
theorem ends_of_instruction? {indexOf : String → Option Nat} {origin : Source}
    {target : Destination} {instruction : Instruction}
    (means : instruction? indexOf origin target = some instruction) :
    instruction.ends = origin.ends ++ target.ends := by
  cases origin with
  | constant value =>
    obtain rfl := Option.some.inj means
    cases target <;> rfl
  | output address => cases target <;> cases means <;> rfl
  | label name =>
    obtain ⟨index, -, rfl⟩ := Option.map_eq_some_iff.mp means
    cases target <;> rfl

/-- Whether an address in an instruction is null as the destination of a move to `null`, and a buffer
everywhere else. -/
def Placed (topology : Topology) (destination : String) (place : Address × Side) : Prop :=
  if place.2 = .input ∧ destination = "null" then place.1 = .null
  else topology.IsBuffer place.1 place.2

theorem placed_of_readSource {origin : Source}
    (reads : readSource topology source quoted line = .ok origin) :
    ∀ place ∈ origin.ends, Placed topology destination place := by
  intro place member
  cases origin with
  | constant value => cases member
  | output address =>
    obtain rfl := List.mem_singleton.mp member
    simpa [Placed] using isBuffer_of_readSource reads
  | label name => cases member

theorem placed_of_readDestination {target : Destination}
    (reads : readDestination topology destination quoted line = .ok target) :
    ∀ place ∈ target.ends, Placed topology destination place := by
  intro place member
  rw [readDestination] at reads
  split at reads
  · obtain rfl := Except.ok.inj reads
    cases member
  · split at reads
    · rename_i toNull
      obtain rfl := Except.ok.inj reads
      obtain rfl := List.mem_singleton.mp member
      simp [Placed, toNull]
    · rename_i notNull
      split at reads
      · cases reads
      · rename_i unit buffer named
        cases resolves : topology.resolve unit buffer .input with
        | error reason => simp [resolves] at reads
        | ok address =>
          simp only [resolves, Except.ok.injEq] at reads
          subst reads
          obtain rfl := List.mem_singleton.mp member
          simpa [Placed, notNull] using Topology.isBuffer_of_resolve resolves

/-- The addresses in the instruction of a move are null or buffers as the move has them. -/
theorem Move.placed_of_instruction? {move : Move} {instruction : Instruction}
    {indexOf : String → Option Nat}
    (means : move.instruction? topology indexOf = some instruction) :
    ∀ place ∈ instruction.ends, Placed topology move.destination place := by
  rw [Move.instruction?] at means
  cases readsSource : readSource topology move.source move.text move.line with
  | error error => simp [readsSource] at means
  | ok origin =>
    cases readsTarget : readDestination topology move.destination move.text move.line with
    | error error => simp [readsSource, readsTarget] at means
    | ok target =>
      simp only [readsSource, readsTarget] at means
      rw [ends_of_instruction? means]
      intro place member
      rcases List.mem_append.mp member with atSource | atTarget
      · exact placed_of_readSource readsSource place atSource
      · exact placed_of_readDestination readsTarget place atTarget

theorem Placed.allows {place : Address × Side} (placed : Placed topology destination place) :
    topology.Allows place := by
  intro real
  rw [Placed] at placed
  split at placed
  · rw [placed] at real
    cases real
  · exact placed

end Assembly

/-! ## Loading into a machine -/

namespace Machine

variable {topology : Topology} {config : Config} {built machine : Machine} {image : Image}
  {program : List Instruction}

/-- A machine of a topology loads the programs that suit the topology, whatever it has been
through. -/
theorem Session.exists_load_iff (declared : topology.Declared)
    (builds : ofTopology topology config = .ok built) (session : Session built machine)
    (reads : image.program = .ok program) :
    (∃ loaded, machine.load image = .ok loaded) ↔
      ∀ place ∈ program.flatMap Instruction.ends, topology.Allows place := by
  rw [← Image.checkProgram_eq_ok_iff_allows declared, load_eq reads,
    (session.follows builds).1.isOf]
  cases Image.checkProgram topology program <;> simp [Except.map]

end Machine

namespace Assembly

/-- Each instruction that a text assembles to is that of its move. -/
theorem instructions_of_assemble {topology : Topology} {text : String} {program : List Instruction}
    (assembles : assemble topology text = .ok program) :
    List.Forall₂ (fun move instruction =>
      move.instruction? topology (labelIndex? · (statements 1 [text])) = some instruction)
        (moves (statements 1 [text])) program := by
  rw [assemble] at assembles
  cases parsed : (Assembler.empty topology).parse text with
  | mk assembler result =>
    cases result with
    | error error => simp [parsed] at assembles
    | ok nothing =>
      simp only [parsed] at assembles
      have readAll : (Assembler.empty topology).parseAll [text] = (assembler, [.ok ()]) := by
        simp [Assembler.parseAll, parsed]
      obtain ⟨accounts, same, unfailed⟩ :=
        (Assembler.accounts_empty topology).parseAll rfl (by rw [readAll]; simp)
      rw [readAll] at accounts same unfailed
      have instructions := accounts.instructions unfailed assembles
      rwa [same, List.nil_append] at instructions

/-- Whatever assembles can also be loaded: the bytes of its image are an image, which reads back as
the program, and the image suits the topology and every machine of the topology, whatever it has
been through. In each instruction the destination is null if its move is one to `null`, and all
other addresses are buffers, which the null address is not. -/
theorem assembled_loads {topology : Topology} (declared : topology.Declared) {text : String}
    {program : List Instruction} (assembles : assemble topology text = .ok program) :
    Image.ofBytes (Image.ofProgram program).bytes = .ok (.ofProgram program) ∧
    (Image.ofProgram program).program = .ok program ∧
    (Image.ofProgram program).validate topology = .ok () ∧
    (∀ config built machine, Machine.ofTopology topology config = .ok built →
      Machine.Session built machine →
      ∃ loaded, machine.load (.ofProgram program) = .ok loaded) ∧
    List.Forall₂ (fun move instruction => ∀ address side, (address, side) ∈ instruction.ends →
      if side = .input ∧ move.destination = "null" then address = .null
      else topology.IsBuffer address side) (moves (statements 1 [text])) program ∧
    ∀ side, ¬topology.IsBuffer .null side := by
  have reads := Image.program_ofProgram program
  have placed := (instructions_of_assemble assembles).imp
    fun move instruction means => move.placed_of_instruction? means
  have allowed : ∀ place ∈ program.flatMap Instruction.ends, topology.Allows place := by
    have inEach : ∀ instruction ∈ program, ∀ place ∈ instruction.ends, topology.Allows place := by
      refine forall_mem_of_forall₂ placed ?_
      intro move instruction isPlaced place atEnd
      exact (isPlaced place atEnd).allows
    intro place member
    obtain ⟨instruction, inProgram, atEnd⟩ := List.mem_flatMap.mp member
    exact inEach instruction inProgram place atEnd
  refine ⟨Image.ofBytes_ofProgram program, reads, ?_, ?_, ?_, ?_⟩
  · rw [Image.validate_eq reads]
    exact (Image.checkProgram_eq_ok_iff_allows declared).mpr allowed
  · intro config built machine builds session
    exact (session.exists_load_iff declared builds reads).mpr allowed
  · exact placed.imp fun move instruction isPlaced address side => isPlaced (address, side)
  · intro side
    exact declared.not_isBuffer_null

end Assembly

/-- A relay can be declared. -/
theorem Topology.declared_relay (depth : Depth) : (relay depth).Declared := by
  have inRange : Depth.ofNat? depth.value = some depth := by
    rw [Depth.ofNat?, dif_pos ⟨depth.positive, depth.bounded⟩]
  refine ⟨"relay", depth.value, [⟨"net", "ring", 2⟩],
    [⟨"cu", "cu", "cu", 0, .empty⟩, ⟨"rob", "rob", "rob", 1, .empty⟩], ?_⟩
  rw [declare, inRange]
  rfl

namespace Assembly

theorem relay_assembled_loads :
    ∃ (program : List Instruction) (built used loaded : Machine),
      assemble (.relay ⟨1, by decide, by decide⟩) "rob@out -> null" = .ok program ∧
      program = [.move ⟨1, 0⟩ .null] ∧
      Machine.ofTopology (.relay ⟨1, by decide, by decide⟩) .default = .ok built ∧
      built.load (.ofProgram Instruction.relayed) = .ok used ∧
      used.run.1.load (.ofProgram program) = .ok loaded ∧
      (Topology.relay ⟨1, by decide, by decide⟩).IsBuffer ⟨1, 0⟩ .output := by
  have assembles : assemble (.relay ⟨1, by decide, by decide⟩) "rob@out -> null" =
      .ok [.move ⟨1, 0⟩ .null] := by decide +kernel
  obtain ⟨built, used, builds, loads, -⟩ := Machine.relay_completes (.inl rfl)
  obtain ⟨-, -, -, loadsAgain, places, -⟩ :=
    assembled_loads (Topology.declared_relay _) assembles
  obtain ⟨loaded, isLoaded⟩ :=
    loadsAgain _ built _ builds ((Machine.Session.built.load loads).run builds)
  obtain ⟨move, -, first, -⟩ := List.forall₂_cons_right_iff.mp places
  have isBuffer := first ⟨1, 0⟩ .output List.mem_cons_self
  exact ⟨_, built, used, loaded, assembles, rfl, builds, loads, isLoaded, by simpa using isBuffer⟩

end Assembly
end MoveMachine
