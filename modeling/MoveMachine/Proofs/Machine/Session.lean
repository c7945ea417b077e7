import MoveMachine.Proofs.Machine.Building
import MoveMachine.Proofs.Network.Kernels

/-!
# Sessions with a machine

A session with a machine (`Machine.Session`) is any order of loading programs,
writing to memory and rounds of runs, from the moment it was built. After a
program was loaded, the machine runs on from there (`Machine.Runs`): rounds, be
they of one run or of several, after a fault or not, and writing to memory in
between. The log of the way (`Machine.Logs`) keeps the machines at which rounds have
begun, and what was done in these rounds is read off them (`Machine.Log.chronicle`).

Loading leaves a machine fresh (`Machine.Fresh`): it follows its topology, the
program is valid, and its network is blank. Whatever it comes to from there is
explained by a history that did just what the log says (`Machine.Fresh.logged`).
-/

set_option autoImplicit false

namespace MoveMachine
namespace Machine

open Network

/-- What a machine can come to after a program was loaded. -/
inductive Runs (loaded : Machine) : Machine → Prop where
  | loaded : Runs loaded loaded
  | round {machine : Machine} (earlier : Runs loaded machine) : Runs loaded machine.round.state
  | write {machine after : Machine} {offset : Nat} {values : List Word}
      (earlier : Runs loaded machine) (writes : machine.writeMemory offset values = .ok after) :
      Runs loaded after

/-- The machines at which rounds have begun, oldest first. -/
abbrev Log := List Machine

/-- What a machine can come to after a program was loaded, with the log of the rounds on the way. -/
inductive Logs (loaded : Machine) : Log → Machine → Prop where
  | loaded : Logs loaded [] loaded
  | round {log : Log} {machine : Machine} (earlier : Logs loaded log machine) :
      Logs loaded (log ++ [machine]) machine.round.state
  | write {log : Log} {machine after : Machine} {offset : Nat} {values : List Word}
      (earlier : Logs loaded log machine) (writes : machine.writeMemory offset values = .ok after) :
      Logs loaded log after

/-- What the units did in the rounds of a log. -/
def Log.chronicle (log : Log) : Chronicle := .join (log.map Machine.chronicle)

/-- What a machine can come to by writing to memory only. -/
inductive Written (loaded : Machine) : Machine → Prop where
  | loaded : Written loaded loaded
  | write {machine after : Machine} {offset : Nat} {values : List Word}
      (earlier : Written loaded machine) (writes : machine.writeMemory offset values = .ok after) :
      Written loaded after

/-- What a machine can come to after it was built. -/
inductive Session (built : Machine) : Machine → Prop where
  | built : Session built built
  | load {machine loaded : Machine} {image : Image} (earlier : Session built machine)
      (loads : machine.load image = .ok loaded) : Session built loaded
  | round {machine : Machine} (earlier : Session built machine)
      (ready : machine.isReady = true) : Session built machine.round.state
  | write {machine after : Machine} {offset : Nat} {values : List Word}
      (earlier : Session built machine) (writes : machine.writeMemory offset values = .ok after) :
      Session built after

theorem Log.chronicle_concat (log : Log) (machine : Machine) :
    Log.chronicle (log ++ [machine]) = log.chronicle ++ machine.chronicle := by
  simp [Log.chronicle]

theorem Logs.runs {loaded machine : Machine} {log : Log} (logs : Logs loaded log machine) :
    Runs loaded machine := by
  induction logs with
  | loaded => exact .loaded
  | round _ ih => exact ih.round
  | write _ writes ih => exact ih.write writes

theorem Runs.exists_logs {loaded machine : Machine} (runs : Runs loaded machine) :
    ∃ log, Logs loaded log machine := by
  induction runs with
  | loaded => exact ⟨[], .loaded⟩
  | round _ ih =>
    obtain ⟨log, logs⟩ := ih
    exact ⟨_, logs.round⟩
  | write _ writes ih =>
    obtain ⟨log, logs⟩ := ih
    exact ⟨log, logs.write writes⟩

/-- A run is made of rounds. -/
theorem Runs.runFrom {loaded machine : Machine} (runs : Runs loaded machine) (done left : Nat) :
    Runs loaded (machine.runFrom done left).1 := by
  induction left generalizing machine done with
  | zero => exact runs
  | succ left ih =>
    rw [Machine.runFrom]
    split
    · exact runs.round
    · exact ih runs.round (done + 1)
    · exact runs.round

theorem Runs.run {loaded machine : Machine} (runs : Runs loaded machine) :
    Runs loaded machine.run.1 := by
  rw [Machine.run]
  split
  · exact runs.runFrom 0 machine.config.maxSteps
  · exact runs

/-! ## Loading -/

/-- A machine that has just loaded a program. -/
structure Fresh (topology : Topology) (program : List Instruction) (loaded : Machine) : Prop where
  follows : loaded.Follows topology
  holds : loaded.program = some program
  valid : Image.checkProgram topology program = .ok ()
  units : loaded.units.map ProcessingUnit.reset = loaded.units
  blank : loaded.network.Blank

theorem ProcessingUnit.reset_reset (unit : ProcessingUnit) : unit.reset.reset = unit.reset := by
  have inputs : InputBuffer.clear ∘ InputBuffer.clear = InputBuffer.clear := rfl
  have outputs : OutputBuffer.clear ∘ OutputBuffer.clear = OutputBuffer.clear := rfl
  have kernels : unit.kernel.reset.reset = unit.kernel.reset := by cases unit.kernel <;> rfl
  simp [ProcessingUnit.reset, Bank.clear, Manager.reset, inputs, outputs, kernels]

/-- A load validates the program and sets the machine back. -/
theorem load_eq {machine : Machine} {image : Image} {program : List Instruction}
    (reads : image.program = .ok program) :
    machine.load image = (Image.checkProgram machine.topology program).map fun _ =>
      { machine.reset with program := some program } := by
  rw [load, Image.validate_eq reads, reads]
  cases Image.checkProgram machine.topology program <;> rfl

/-- What loading a program does. -/
theorem load_spec {machine loaded : Machine} {image : Image}
    (loads : machine.load image = .ok loaded) :
    ∃ program, image.program = .ok program ∧
      Image.checkProgram machine.topology program = .ok () ∧
      loaded = { machine.reset with program := some program } := by
  cases reads : image.program with
  | error fault => simp [load, Image.validate, reads, bind, Except.bind] at loads
  | ok program =>
    rw [load_eq reads] at loads
    cases checked : Image.checkProgram machine.topology program with
    | error fault =>
      rw [checked] at loads
      cases loads
    | ok =>
      rw [checked] at loads
      exact ⟨program, rfl, checked, (Except.ok.inj loads).symm⟩

/-- A machine that was set back has a blank network. -/
theorem blank_reset (machine : Machine) (program : Option (List Instruction)) :
    { machine.reset with program }.network.Blank := by
  have read {Contents : Type} (number : UInt8) (of : ProcessingUnit → List Contents)
      (empty : ∀ unit : ProcessingUnit, of unit.reset = []) :
      (unitNumbered? (machine.units.map ProcessingUnit.reset) number).elim [] of = [] := by
    rw [unitNumbered?_reset]
    cases unitNumbered? machine.units number <;> simp [empty]
  refine ⟨?_, ?_, ?_, ?_, ?_, rfl, rfl, rfl, rfl, rfl, rfl, rfl⟩
  · intro input
    exact read input.unit _ fun unit => Bank.slotsAt_clear unit.buffers input.buffer
  · intro output
    exact read output.unit _ fun unit => Bank.valuesAt_clear unit.buffers output.buffer
  · intro output
    exact read output.unit _ fun unit => Bank.destinationsAt_clear unit.buffers output.buffer
  · intro post
    have empty : (unitNumbered? (machine.units.map ProcessingUnit.reset) post.1).bind
        (fun unit => (unit.manager post.2).pending) = none := by
      rw [unitNumbered?_reset]
      cases unitNumbered? machine.units post.1 with
      | none => rfl
      | some unit => simp [Manager.reset]
    exact empty
  · intro post
    exact read post.1 _ fun unit => by rw [ProcessingUnit.manager_reset]; rfl

theorem Follows.load {topology : Topology} {machine loaded : Machine} {image : Image}
    (follows : machine.Follows topology) (loads : machine.load image = .ok loaded) :
    ∃ program, image.program = .ok program ∧ Fresh topology program loaded := by
  obtain ⟨program, decoded, checked, rfl⟩ := load_spec loads
  have again : (machine.units.map ProcessingUnit.reset).map ProcessingUnit.reset =
      machine.units.map ProcessingUnit.reset := by
    rw [List.map_map]
    exact List.map_congr_left fun unit _ => ProcessingUnit.reset_reset unit
  refine ⟨program, decoded, ?_, rfl, follows.isOf ▸ checked, again, blank_reset machine program⟩
  exact follows.of_resembles again rfl rfl

/-! ## The control unit -/

/-- A topology that is accepted has one control unit. -/
theorem control_unique {topology : Topology} (checked : checkControl topology = .ok ())
    {first second : UnitDescription} (member : first ∈ topology.units.values)
    (member' : second ∈ topology.units.values) (type : first.type = .control)
    (type' : second.type = .control) : first = second := by
  have isFirst : first ∈ topology.units.values.filter (·.type = .control) :=
    List.mem_filter.mpr ⟨member, by simpa using type⟩
  have isSecond : second ∈ topology.units.values.filter (·.type = .control) :=
    List.mem_filter.mpr ⟨member', by simpa using type'⟩
  rw [checkControl] at checked
  split at checked
  · cases checked
  · rename_i only isOnly
    rw [isOnly, List.mem_singleton] at isFirst isSecond
    exact isFirst.trans isSecond.symm
  · cases checked

theorem Follows.soleControl {topology : Topology} {machine : Machine}
    (checked : checkControl topology = .ok ()) (follows : machine.Follows topology)
    {control : UInt8} {description : UnitDescription}
    (described : topology.unitNumbered? control = some description)
    (type : description.type = .control) : machine.network.SoleControl control := by
  intro number kernel present
  obtain ⟨other, otherDescribed, member, isNumber, sameType⟩ :=
    follows.description_of_kernel present
  rw [← sameType]
  constructor
  · intro otherType
    rw [← isNumber, control_unique checked member (List.mem_of_find?_eq_some described) otherType
      type]
    simpa using List.find?_some described
  · rintro rfl
    obtain rfl := Option.some.inj (described.symm.trans otherDescribed)
    exact type

/-! ## Running -/

section Running

variable {topology : Topology} {program : List Instruction} {loaded machine : Machine}

theorem Fresh.suits (fresh : Fresh topology program loaded) : loaded.Suits program :=
  fresh.follows.suits fresh.holds fresh.valid

theorem size_overwrite (memory : Memory) (offset : Nat) (values : List Word) :
    (overwrite memory offset values).size = memory.size := by
  induction values generalizing memory offset with
  | nil => rfl
  | cons value later ih => rw [overwrite, ih, Array.size_setIfInBounds]

/-- Words are written if their range is inside memory. -/
theorem writeMemory_eq (machine : Machine) (offset : Nat) (values : List Word) :
    machine.writeMemory offset values =
      if offset + values.length ≤ machine.shared.memory.size then
        .ok { machine with shared := { machine.shared with
          memory := overwrite machine.shared.memory offset values } }
      else .error (.memoryRange offset values.length machine.shared.memory.size) := by
  rw [writeMemory, checkRange]
  split <;> rfl

/-- What writing to memory does. -/
theorem writeMemory_spec {after : Machine} {offset : Nat} {values : List Word}
    (writes : machine.writeMemory offset values = .ok after) :
    ∃ memory : Memory, memory.size = machine.shared.memory.size ∧
      after = { machine with shared := { machine.shared with memory } } := by
  rw [writeMemory_eq] at writes
  split at writes
  · exact ⟨_, size_overwrite _ offset values, (Except.ok.inj writes).symm⟩
  · cases writes

/-- Writing to memory leaves a machine fresh. -/
theorem Fresh.written (fresh : Fresh topology program loaded) (written : Written loaded machine) :
    Fresh topology program machine := by
  induction written with
  | loaded => exact fresh
  | write _ writes ih =>
    obtain ⟨memory, -, rfl⟩ := writeMemory_spec writes
    exact ⟨ih.follows.of_resembles rfl rfl rfl, ih.holds, ih.valid, ih.units, { ih.blank with }⟩

/-- Whatever a machine comes to after loading is explained by a history from there, which did what
the log says. -/
theorem Fresh.logged {log : Log} (fresh : Fresh topology program loaded)
    (logs : Logs loaded log machine) :
    loaded.Resembles machine ∧ ∃ history : History,
      Evolves program topology.depth.value loaded.network history machine.network ∧
        history.Does log.chronicle := by
  induction logs with
  | loaded => exact ⟨.refl loaded, [], .start, rfl⟩
  | @round log machine earlier ih =>
    obtain ⟨same, history, evolves, does⟩ := ih
    have depth : machine.topology.depth = topology.depth := by
      rw [same.topology, fresh.follows.isOf]
    have reachable : machine.network.Reachable program machine.topology.depth.value := by
      rw [depth]
      exact ⟨_, history, fresh.blank, evolves⟩
    obtain ⟨keeps, later, evolvesOn, doesLater, -⟩ :=
      round_explained (fresh.suits.of_resembles same) reachable
    rw [depth] at evolvesOn
    refine ⟨same.trans keeps, history ++ later, evolves.trans evolvesOn, ?_⟩
    rw [Log.chronicle_concat]
    exact does.append doesLater
  | write earlier writes ih =>
    obtain ⟨same, history, evolves, does⟩ := ih
    obtain ⟨memory, size, rfl⟩ := writeMemory_spec writes
    have outside : History.Does .nothing [Event.write] :=
      (History.of_singleton .write).doesNothing (by simp [Event.part]) (by simp [Event.part])
        (by simp [Event.part]) (by simp [Event.part])
    exact ⟨same.trans ⟨rfl, rfl, rfl, rfl⟩, history ++ [.write], evolves.step (.write size),
      does.append_nothing outside⟩

theorem Fresh.evolves (fresh : Fresh topology program loaded) (runs : Runs loaded machine) :
    loaded.Resembles machine ∧
      ∃ history, Evolves program topology.depth.value loaded.network history machine.network := by
  obtain ⟨log, logs⟩ := runs.exists_logs
  obtain ⟨same, history, evolves, -⟩ := fresh.logged logs
  exact ⟨same, history, evolves⟩

theorem Fresh.reachable (fresh : Fresh topology program loaded) (runs : Runs loaded machine) :
    machine.network.Reachable program topology.depth.value := by
  obtain ⟨-, history, evolves⟩ := fresh.evolves runs
  exact ⟨_, history, fresh.blank, evolves⟩

/-- What a machine comes to after loading still follows the topology. -/
theorem Fresh.follows_of_runs (fresh : Fresh topology program loaded)
    (runs : Runs loaded machine) : machine.Follows topology := by
  obtain ⟨same, history, evolves⟩ := fresh.evolves runs
  exact fresh.follows.of_resembles same.units same.topology evolves.capacity

theorem Fresh.suits_of_runs (fresh : Fresh topology program loaded)
    (runs : Runs loaded machine) : machine.Suits program :=
  fresh.suits.of_resembles (fresh.evolves runs).1

/-- Every further round is explained by events that did what is read off its moments. -/
theorem Fresh.round_explained (fresh : Fresh topology program loaded)
    (runs : Runs loaded machine) :
    Explained program topology.depth.value machine.network (History.Does machine.chronicle) network
      machine.Resembles machine.round := by
  have reachable := fresh.reachable runs
  rw [← (fresh.follows_of_runs runs).isOf] at reachable ⊢
  exact Machine.round_explained (fresh.suits_of_runs runs) reachable

end Running

/-! ## Sessions -/

/-- Throughout a session the machine follows its topology, and before the first program is loaded
it has none and nothing happens. -/
theorem Session.follows {topology : Topology} {config : Config} {built machine : Machine}
    (builds : ofTopology topology config = .ok built) (session : Session built machine) :
    machine.Follows topology ∧ ((machine.program = none ∧ machine.network.Blank) ∨
      ∃ program loaded, Fresh topology program loaded ∧ Runs loaded machine) := by
  induction session with
  | built =>
    obtain ⟨-, atBeginning, units, -, -, -, none, -⟩ := ofTopology_spec builds
    have blank := blank_reset built built.program
    rw [atBeginning] at blank
    exact ⟨follows_of_ofTopology builds, .inl ⟨none, blank⟩⟩
  | load earlier loads ih =>
    obtain ⟨program, -, fresh⟩ := ih.1.load loads
    exact ⟨fresh.follows, .inr ⟨program, _, fresh, .loaded⟩⟩
  | round earlier ready ih =>
    rcases ih.2 with ⟨none, -⟩ | ⟨program, loaded, fresh, runs⟩
    · rw [isReady, none] at ready
      cases ready
    · exact ⟨fresh.follows_of_runs runs.round, .inr ⟨program, loaded, fresh, runs.round⟩⟩
  | write earlier writes ih =>
    obtain ⟨memory, -, changed⟩ := writeMemory_spec writes
    refine ⟨?_, ?_⟩
    · subst changed
      exact ih.1.of_resembles rfl rfl rfl
    · rcases ih.2 with ⟨none, blank⟩ | ⟨program, loaded, fresh, runs⟩
      · subst changed
        exact .inl ⟨none, { blank with }⟩
      · exact .inr ⟨program, loaded, fresh, runs.write writes⟩

/-- A program that is loaded in a session starts afresh. -/
theorem Session.fresh {topology : Topology} {config : Config} {built machine loaded : Machine}
    {image : Image} {program : List Instruction} (builds : ofTopology topology config = .ok built)
    (session : Session built machine) (loads : machine.load image = .ok loaded)
    (decodes : image.program = .ok program) : Fresh topology program loaded := by
  obtain ⟨decoded, isDecoded, fresh⟩ := (session.follows builds).1.load loads
  obtain rfl := Except.ok.inj (decodes.symm.trans isDecoded)
  exact fresh

/-- The runs of a session are part of it. -/
theorem Session.run {topology : Topology} {config : Config} {built machine : Machine}
    (builds : ofTopology topology config = .ok built) (session : Session built machine) :
    Session built machine.run.1 := by
  rw [Machine.run]
  split
  case isFalse => exact session
  case isTrue ready =>
    generalize machine.config.maxSteps = left
    generalize 0 = done
    induction left generalizing machine done with
    | zero => exact session
    | succ left ih =>
      have next := session.round ready
      rw [Machine.runFrom]
      split
      · exact next
      · refine ih next ?_ (done + 1)
        rcases (session.follows builds).2 with ⟨none, -⟩ | ⟨program, loaded, fresh, runs⟩
        · rw [isReady, none] at ready
          cases ready
        · rw [isReady, (fresh.suits_of_runs runs.round).loaded]
          rfl
      · exact next

end Machine

/-! ## A small machine -/

/-- A control unit and a unit that passes values on. -/
def Topology.relay (depth : Depth) : Topology where
  name := "relay"
  depth
  interconnect := ⟨"net", "ring", 2⟩
  units := ⟨[("cu", ⟨"cu", .control, "cu", 0, .empty⟩),
    ("rob", ⟨"rob", .reorder, "rob", 1, .empty⟩)], by decide⟩

/-- A constant is passed on and collected. -/
def Instruction.relayed : List Instruction :=
  [.immediate (.ofNat 7) ⟨1, 0⟩, .move ⟨1, 0⟩ ⟨0, 0⟩]

theorem Image.program_relayed :
    (ofProgram Instruction.relayed).program = .ok Instruction.relayed := rfl

/-- Buffers for one or two values will do. -/
theorem Machine.relay_completes {depth : Depth}
    (small : depth = ⟨1, by decide, by decide⟩ ∨ depth = ⟨2, by decide, by decide⟩) :
    ∃ built loaded : Machine, ofTopology (.relay depth) .default = .ok built ∧
      built.load (.ofProgram Instruction.relayed) = .ok loaded ∧
        loaded.run.2 = .ok ⟨.completed, 5, 2, 1, 0, [.ofNat 7]⟩ := by
  rcases small with rfl | rfl
  · exact ⟨_, _, rfl, rfl, rfl⟩
  · exact ⟨_, _, rfl, rfl, rfl⟩

end MoveMachine
