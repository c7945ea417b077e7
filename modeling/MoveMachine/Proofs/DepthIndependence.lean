import MoveMachine.Proofs.Machine.Completion
import MoveMachine.Proofs.Network.Determinacy

/-!
# The depth of buffers is not observable

Deeper buffers let the units of a machine work further ahead of one another. In
which round a value is produced depends on them, and so does how much is
produced that no move waits for. What is reported of a completed run does not
(`Machine.depth_unobservable`): the results, the numbers of instructions and
packets, and the contents of memory. It takes that no two units work on memory
and that the control unit takes from one input.

The kernels of two completed runs have fired alike, but for surplus firings.
These change neither memory nor the results (`Network.Recorded.course_of_surplus`),
and their values stay in the output (`Network.Tracks.length_sentFrom_le`).
-/

set_option autoImplicit false

namespace MoveMachine

namespace Network

variable {memoryUnit control port : UInt8} {program all : List Instruction}
  {depth depthOther : Nat} {start startOther network final : Network} {history other : History}
  {unit : UInt8}

/-! ## Results and memory -/

theorem Tracks.firings_cases (tracks : Tracks history network other)
    (tracksBack : Tracks other final history) (unit : UInt8) :
    history.firings unit = other.firings unit ∨ network.Surplus unit ∨ final.Surplus unit := by
  rcases tracks unit with fewer | ⟨-, surplus⟩
  · rcases tracksBack unit with more | ⟨-, surplus⟩
    · exact .inl (more.eq_of_length_le fewer.length_le)
    · exact .inr (.inr surplus)
  · exact .inr (.inl surplus)

/-- Where a surplus is produced, firings change neither memory nor results. -/
theorem Recorded.course_of_surplus
    (recorded : Recorded memoryUnit control port all start history network)
    (completed : network.Completed depth) (surplus : network.Surplus unit)
    (firings firingsOther : List Firing) :
    (start.course unit firings).memory = (start.course unit firingsOther).memory ∧
      (start.course unit firings).collected = (start.course unit firingsOther).collected := by
  obtain ⟨kernel, present, produces⟩ := surplus.produces
  have kinds := Kernel.type_of_produces produces (completed.idle unit kernel present)
  have replayed := recorded.replays.kernel unit
  rw [present] at replayed
  obtain ⟨original, isOriginal, rfl⟩ := Option.map_eq_some_iff.mp replayed.symm
  rw [course, Course.type_foldl, isOriginal, Option.getD_some] at kinds
  have memory (firings : List Firing) :
      (start.course unit firings).memory = start.shared.memory := by
    rw [course, isOriginal, Option.getD_some]
    refine Course.memory_foldl _ firings ?_ ?_ <;> rcases kinds with kind | kind <;> simp [kind]
  have collected (firings : List Firing) : (start.course unit firings).collected = [] := by
    rw [course, isOriginal, Option.getD_some]
    refine Course.collected_foldl _ firings ?_
    rcases kinds with kind | kind <;> simp [kind]
  exact ⟨(memory _).trans (memory _).symm, (collected _).trans (collected _).symm⟩

/-- What the kernels of two completed runs have written and collected is the same. -/
theorem Recorded.course_eq (first : Recorded memoryUnit control port all start history network)
    (second : Recorded memoryUnit control port all start other final)
    (finishes : Finishes program depth start history network)
    (finishesOther : Finishes program depthOther startOther other final)
    (tracks : Tracks history network other) (tracksBack : Tracks other final history)
    (unit : UInt8) :
    (start.course unit (history.firings unit)).memory =
        (start.course unit (other.firings unit)).memory ∧
      (start.course unit (history.firings unit)).collected =
        (start.course unit (other.firings unit)).collected := by
  rcases tracks.firings_cases tracksBack unit with same | surplus | surplus
  · rw [same]
    exact ⟨rfl, rfl⟩
  · exact first.course_of_surplus finishes.completed surplus _ _
  · exact second.course_of_surplus finishesOther.completed surplus _ _

/-! ## Packets -/

/-- A completed run that tracks another sends no more packets than it does. -/
theorem Tracks.length_sentFrom_le {common : Network}
    (first : Recorded memoryUnit control port history.issued common history network)
    (second : Recorded memoryUnit control port history.issued common other final)
    (finishes : Finishes program depth start history network)
    (finishesOther : Finishes program depthOther startOther other final)
    (issued : history.issued = other.issued) (tracks : Tracks history network other)
    (output : Address) :
    (other.sentFrom output).length ≤ (history.sentFrom output).length := by
  have sent := finishes.completed.length_sentFrom first.account finishes.room output
  have sentOther := finishesOther.completed.length_sentFrom second.account finishesOther.room output
  rw [← issued] at sentOther
  rcases tracks output.unit with fewer | ⟨-, surplus⟩
  · have produced := (second.produced_prefix first fewer).length_le
    omega
  · by_cases isResult : output.buffer = Bank.result
    · -- all moves have been served, so a further value does not leave the output
      have whole : output = ⟨output.unit, Bank.result⟩ := by rw [← isResult]
      have tags := finishes.completed.length_destinations first.account output
      rw [whole, surplus.unwanted, ← whole, List.length_nil] at tags
      omega
    · rw [produced_eq_nil other isResult, List.length_nil] at sentOther
      omega

/-- The packets that left an output are known by their destinations. -/
theorem count_route (history : History) (output destination : Address) :
    (history.sent.map Packet.route).count (output, destination) =
      ((history.sentFrom output).map Packet.destination).count destination := by
  rw [List.count, List.count, List.countP_map, List.countP_map, History.sentFrom,
    List.countP_filter]
  refine List.countP_congr fun packet _ => ?_
  simp [Packet.route, and_comm]

/-- If each output has sent packets to the same destinations, as many packets were sent, and as many
to nowhere. -/
theorem sent_eq_of_destinations
    (same : ∀ output, (history.sentFrom output).map Packet.destination =
      (other.sentFrom output).map Packet.destination) :
    history.sent.length = other.sent.length ∧
      history.sent.countP (·.destination.isNull) = other.sent.countP (·.destination.isNull) := by
  have routes : (history.sent.map Packet.route).Perm (other.sent.map Packet.route) := by
    refine List.perm_iff_count.mpr fun (output, destination) => ?_
    rw [count_route, count_route, same]
  constructor
  · simpa using routes.length_eq
  · have dropped := routes.countP_eq (·.2.isNull)
    rwa [List.countP_map, List.countP_map] at dropped

/-! ## Completed runs -/

/-- What two completed runs of a program from alike starts have in common. -/
theorem Finishes.outcome_eq (finishes : Finishes program depth start history network)
    (finishesOther : Finishes program depthOther startOther other final)
    (determinate : Determinate memoryUnit control port program start)
    (determinateOther : Determinate memoryUnit control port program startOther)
    (alike : start.Alike startOther) :
    network.issued = final.issued ∧ network.shared.results = final.shared.results ∧
      network.shared.interconnect.delivered = final.shared.interconnect.delivered ∧
      network.shared.interconnect.discarded = final.shared.interconnect.discarded ∧
      network.shared.memory = final.shared.memory := by
  obtain ⟨issued, count⟩ := finishes.evolves.issued_unique determinate.blank determinateOther.blank
    finishesOther.evolves finishes.completed.halted finishesOther.completed.halted
  have issuedOther : other.issued <+: history.issued := issued ▸ List.prefix_rfl
  have tracks : Tracks history network other := finishes.tracks determinate determinateOther alike
    finishesOther.evolves finishesOther.undisturbed issuedOther
  have tracksBack : Tracks other final history := finishesOther.tracks determinateOther determinate
    alike.symm finishes.evolves finishes.undisturbed (issued ▸ List.prefix_rfl)
  have first := determinate.recorded finishes.evolves finishes.undisturbed List.prefix_rfl
  have second := (determinateOther.recorded finishesOther.evolves finishesOther.undisturbed
    issuedOther).of_alike alike.symm
  have courses := first.course_eq second finishes finishesOther tracks tracksBack
  have sent (output : Address) : (history.sentFrom output).map Packet.destination =
      (other.sentFrom output).map Packet.destination := by
    have fewer := tracks.length_sentFrom_le first second finishes finishesOther issued output
    have more := tracksBack.length_sentFrom_le (issued ▸ second) (issued ▸ first) finishesOther
      finishes issued.symm output
    have whole := first.account.sent_prefix output
    have wholeOther := second.account.sent_prefix output
    rw [← issued] at wholeOther
    refine List.IsPrefix.eq_of_length_le (List.prefix_of_prefix_length_le whole wholeOther ?_) ?_
    · simpa using more
    · simpa using fewer
  obtain ⟨total, dropped⟩ := sent_eq_of_destinations sent
  have discarded : network.shared.interconnect.discarded = final.shared.interconnect.discarded := by
    rw [first.account.discarded, second.account.discarded, dropped]
  refine ⟨count, ?_, ?_, discarded, ?_⟩
  · rw [← Array.toList_inj, first.replays.collected, second.replays.collected, (courses control).2]
  · have packets := first.account.packets
    have packetsOther := second.account.packets
    rw [finishes.completed.inFlight, List.length_nil] at packets
    rw [finishesOther.completed.inFlight, List.length_nil] at packetsOther
    omega
  · rw [first.replays.memory, second.replays.memory, (courses memoryUnit).1]

end Network

namespace Machine

open Network

variable {topology : Topology} {program : List Instruction} {loaded other after : Machine}

/-- Before they have done anything, kernels are what the topology says. -/
theorem Fresh.kernel (fresh : Fresh topology program loaded) (number : UInt8) :
    loaded.network.kernel number = (topology.unitNumbered? number).bind fun description =>
      (Kernel.ofUnit description).toOption := by
  have related := fresh.follows.units number
  cases described : topology.unitNumbered? number with
  | none =>
    rw [described] at related
    cases found : unitNumbered? loaded.units number with
    | none => simp [network, found]
    | some unit =>
      rw [found] at related
      cases related
  | some description =>
    obtain ⟨unit, found, isMatch⟩ := fresh.follows.unit described
    have units := fresh.units
    rw [← List.map_id loaded.units, List.map_map, List.map_inj_left] at units
    have atBeginning : unit.reset = unit := units unit (List.mem_of_find?_eq_some found)
    have kernel : unit.kernel.reset = unit.kernel := congrArg (·.kernel) atBeginning
    have made := isMatch.kernel
    rw [kernel] at made
    simp [network, found, made, Except.toOption]

/-- The depth of buffers is no part of a kernel. -/
theorem Fresh.alike {depth : Depth} (fresh : Fresh topology program loaded)
    (freshOther : Fresh { topology with depth } program other)
    (memory : loaded.shared.memory = other.shared.memory) :
    loaded.network.Alike other.network where
  kernel := funext fun number => (fresh.kernel number).trans (freshOther.kernel number).symm
  memory := memory

/-- If at most one unit works on memory, its number is known. -/
theorem exists_memoryUnit (few : (topology.units.values.filter (·.type.usesMemory)).length ≤ 1) :
    ∃ memoryUnit, ∀ description ∈ topology.units.values, description.type.usesMemory = true →
      description.number = memoryUnit := by
  have isUser {description : UnitDescription} (member : description ∈ topology.units.values)
      (uses : description.type.usesMemory = true) :
      description ∈ topology.units.values.filter (·.type.usesMemory) :=
    List.mem_filter.mpr ⟨member, uses⟩
  generalize topology.units.values.filter (·.type.usesMemory) = users at few isUser
  match users with
  | [] => exact ⟨0, fun description member uses => absurd (isUser member uses) List.not_mem_nil⟩
  | [only] =>
    refine ⟨only.number, fun description member uses => ?_⟩
    rw [List.mem_singleton.mp (isUser member uses)]
  | _ :: _ :: _ => simp at few

theorem Fresh.determinate (fresh : Fresh topology program loaded)
    (checked : checkControl topology = .ok ()) {memoryUnit : UInt8}
    (memory : ∀ description ∈ topology.units.values, description.type.usesMemory = true →
      description.number = memoryUnit)
    {control : UnitDescription} (isUnit : control ∈ topology.units.values)
    (isControl : control.type = .control) {input : Address}
    (oneInput : ∀ instruction ∈ program, instruction.destination.isNull = false →
      instruction.destination.unit = control.number → instruction.destination = input) :
    Determinate memoryUnit control.number input.buffer program loaded.network where
  blank := fresh.blank
  exclusive := by
    constructor
    · intro number kernel present uses
      obtain ⟨description, -, member, rfl, type⟩ := fresh.follows.description_of_kernel present
      exact memory description member (type ▸ uses)
    · intro number kernel present type
      obtain ⟨description, -, member, rfl, sameType⟩ := fresh.follows.description_of_kernel present
      rw [control_unique checked member isUnit (sameType.trans type) isControl]
  funnels := by
    intro instruction member target goes own
    obtain ⟨real, rfl⟩ := Instruction.goesTo_iff.mp goes
    rw [oneInput instruction member real own]

/-- What is known of a run that is reported complete. -/
theorem Fresh.finishes (fresh : Fresh topology program loaded)
    (checked : checkControl topology = .ok ()) {report : RunReport}
    (ends : loaded.run = (after, .ok report)) (completed : report.outcome = .completed) :
    ∃ history steps, Finishes program topology.depth.value loaded.network history after.network ∧
      report = after.report .completed steps := by
  obtain ⟨isCompleted, ⟨history, undisturbed, evolves⟩, runs, steps, reports⟩ :=
    fresh.completed_of_run .loaded ends completed
  have room := (fresh.follows_of_runs runs).capacity_pos checked
  exact ⟨history, steps, ⟨evolves, undisturbed, isCompleted, room, topology.depth.positive⟩,
    reports⟩

/-- A machine that has loaded its first program has an empty memory. -/
theorem memory_of_load {config : Config} {built : Machine} {image : Image}
    (builds : ofTopology topology config = .ok built) (loads : built.load image = .ok loaded) :
    loaded.shared.memory = Array.replicate config.memoryWords .zero := by
  obtain ⟨-, -, units, -, -, -, -, -, memory⟩ := ofTopology_spec builds
  obtain ⟨program, -, -, rfl⟩ := load_spec loads
  exact memory

end Machine

/-- Three constants are passed on, and only the first is collected. -/
def Instruction.excess : List Instruction :=
  [.immediate (.ofNat 7) ⟨1, 0⟩, .immediate (.ofNat 8) ⟨1, 0⟩, .immediate (.ofNat 9) ⟨1, 0⟩,
    .move ⟨1, 0⟩ ⟨0, 0⟩]

theorem Image.program_excess :
    (ofProgram Instruction.excess).program = .ok Instruction.excess := rfl

namespace Machine

/-- In deeper buffers the last of the constants is passed on as well. -/
theorem relay_excess {depth : Depth} {steps : Nat}
    (small : depth = ⟨1, by decide, by decide⟩ ∧ steps = 9 ∨
      depth = ⟨2, by decide, by decide⟩ ∧ steps = 7) :
    ∃ built loaded : Machine, ofTopology (.relay depth) .default = .ok built ∧
      built.load (.ofProgram Instruction.excess) = .ok loaded ∧
        loaded.run.2 = .ok ⟨.completed, steps, 4, 1, 0, [.ofNat 7]⟩ := by
  rcases small with ⟨rfl, rfl⟩ | ⟨rfl, rfl⟩
  · exact ⟨_, _, rfl, rfl, rfl⟩
  · exact ⟨_, _, rfl, rfl, rfl⟩

/-- The depth of buffers is not observable: if at most one unit works on memory and the control unit
takes from one input, completed runs of a program on machines that differ in the depth of their
buffers, from the same memory, report the same results and the same numbers of instructions and
packets, and leave the same memory. -/
theorem depth_unobservable {topology : Topology} {depth : Depth} {config configOther : Config}
    {built before loaded ready after : Machine}
    {builtOther beforeOther loadedOther readyOther afterOther : Machine} {image : Image}
    {program : List Instruction} {control : UnitDescription} {input : Address}
    {report reportOther : RunReport}
    (builds : ofTopology topology config = .ok built)
    (buildsOther : ofTopology { topology with depth } configOther = .ok builtOther)
    (session : Session built before) (sessionOther : Session builtOther beforeOther)
    (loads : before.load image = .ok loaded) (loadsOther : beforeOther.load image = .ok loadedOther)
    (decodes : image.program = .ok program)
    (oneMemoryUnit : (topology.units.values.filter (·.type.usesMemory)).length ≤ 1)
    (isUnit : control ∈ topology.units.values) (isControl : control.type = .control)
    (oneInput : ∀ instruction ∈ program, instruction.destination.isNull = false →
      instruction.destination.unit = control.number → instruction.destination = input)
    (written : Written loaded ready) (writtenOther : Written loadedOther readyOther)
    (sameMemory : ready.shared.memory = readyOther.shared.memory)
    (ends : ready.run = (after, .ok report)) (completed : report.outcome = .completed)
    (endsOther : readyOther.run = (afterOther, .ok reportOther))
    (completedOther : reportOther.outcome = .completed) :
    report.results = reportOther.results ∧ report.issued = reportOther.issued ∧
      report.delivered = reportOther.delivered ∧ report.discarded = reportOther.discarded ∧
      after.shared.memory = afterOther.shared.memory := by
  obtain ⟨checked, -⟩ := ofTopology_spec builds
  obtain ⟨checkedOther, -⟩ := ofTopology_spec buildsOther
  have fresh := (session.fresh builds loads decodes).written written
  have freshOther := (sessionOther.fresh buildsOther loadsOther decodes).written writtenOther
  obtain ⟨memoryUnit, memory⟩ := exists_memoryUnit oneMemoryUnit
  obtain ⟨history, steps, finishes, rfl⟩ := fresh.finishes checked ends completed
  obtain ⟨historyOther, stepsOther, finishesOther, rfl⟩ :=
    freshOther.finishes checkedOther endsOther completedOther
  obtain ⟨issued, results, delivered, discarded, sameMemoryAfter⟩ :=
    finishes.outcome_eq finishesOther
      (fresh.determinate checked memory isUnit isControl oneInput)
      (freshOther.determinate checkedOther memory isUnit isControl oneInput)
      (fresh.alike freshOther sameMemory)
  exact ⟨congrArg Array.toList results, issued, delivered, discarded, sameMemoryAfter⟩

theorem relay_depth_unobservable :
    ∃ (built loaded builtOther loadedOther : Machine) (report reportOther : RunReport),
      ofTopology (.relay ⟨1, by decide, by decide⟩) .default = .ok built ∧
      ofTopology (.relay ⟨2, by decide, by decide⟩) .default = .ok builtOther ∧
      built.load (.ofProgram Instruction.excess) = .ok loaded ∧
      builtOther.load (.ofProgram Instruction.excess) = .ok loadedOther ∧
      loaded.run = (loaded.run.1, .ok report) ∧ report.outcome = .completed ∧
      loadedOther.run = (loadedOther.run.1, .ok reportOther) ∧ reportOther.outcome = .completed ∧
      report.steps ≠ reportOther.steps ∧
      report.results = reportOther.results ∧ report.issued = reportOther.issued ∧
      report.delivered = reportOther.delivered ∧ report.discarded = reportOther.discarded ∧
      loaded.run.1.shared.memory = loadedOther.run.1.shared.memory := by
  obtain ⟨built, loaded, builds, loads, completes⟩ := relay_excess (.inl ⟨rfl, rfl⟩)
  obtain ⟨builtOther, loadedOther, buildsOther, loadsOther, completesOther⟩ :=
    relay_excess (.inr ⟨rfl, rfl⟩)
  have ends : loaded.run = (loaded.run.1, .ok ⟨.completed, 9, 4, 1, 0, [.ofNat 7]⟩) := by
    rw [← completes]
  have endsOther : loadedOther.run =
      (loadedOther.run.1, .ok ⟨.completed, 7, 4, 1, 0, [.ofNat 7]⟩) := by
    rw [← completesOther]
  have memory : loaded.shared.memory = loadedOther.shared.memory :=
    (memory_of_load builds loads).trans (memory_of_load buildsOther loadsOther).symm
  have oneInput : ∀ instruction ∈ Instruction.excess, instruction.destination.isNull = false →
      instruction.destination.unit = 0 → instruction.destination = ⟨0, 0⟩ := by
    decide
  exact ⟨built, loaded, builtOther, loadedOther, _, _, builds, buildsOther, loads, loadsOther, ends,
    rfl, endsOther, rfl, by decide, depth_unobservable builds buildsOther .built .built loads
      loadsOther Image.program_excess (by decide) List.mem_cons_self rfl oneInput .loaded .loaded
      memory ends rfl endsOther rfl⟩

end Machine
end MoveMachine
