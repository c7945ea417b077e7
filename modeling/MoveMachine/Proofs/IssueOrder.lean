import MoveMachine.Proofs.Machine.Completion
import MoveMachine.Proofs.Machine.RoundBudget
import MoveMachine.Proofs.Network.Order

/-!
# Issuing follows the program alone

A program has a path: it starts at the first instruction, continues after a jump at its
target and after any other instruction at the next one, and ends at the first index
behind the program, if it ever comes to one (`Instruction.EndsAfter`). Whatever a
machine stalls on, what it issues is the front of that path
(`Machine.issue_follows_program`).

An instruction is issued to all managers that it concerns at once, or to none
(`Machine.dispatch_cases`): whether they have room is asked before the first of them
receives anything, and one of them receiving it takes no room from another.
-/

set_option autoImplicit false

namespace MoveMachine

/-! ## The path of a program -/

namespace Instruction

variable {program : List Instruction} {count other : Nat}

/-- Whether the path of a program ends after a number of instructions. -/
structure EndsAfter (program : List Instruction) (count : Nat) : Prop where
  ended : program.length ≤ indexAfter program count
  before : ∀ earlier < count, indexAfter program earlier < program.length

theorem EndsAfter.unique (ends : EndsAfter program count) (endsOther : EndsAfter program other) :
    count = other := by
  rcases Nat.lt_trichotomy count other with earlier | same | later
  · exact absurd ends.ended (Nat.not_le_of_lt (endsOther.before count earlier))
  · exact same
  · exact absurd endsOther.ended (Nat.not_le_of_lt (ends.before other later))

/-- The front of a path is a prefix of every longer one. -/
theorem firstIssued_prefix (shorter : count ≤ other) :
    firstIssued program count <+: firstIssued program other := by
  induction shorter with
  | refl => exact List.prefix_rfl
  | step _ ih =>
    rw [firstIssued_succ]
    exact ih.trans (List.prefix_append _ _)

theorem length_firstIssued_le (program : List Instruction) (count : Nat) :
    (firstIssued program count).length ≤ count := by
  have most := List.length_filterMap_le (fun earlier => program[indexAfter program earlier]?)
    (List.range count)
  rwa [List.length_range] at most

/-- If the front of a path has its full length, the path did not end before. -/
theorem indexAfter_lt_of_length (full : (firstIssued program count).length = count)
    {earlier : Nat} (before : earlier < count) : indexAfter program earlier < program.length := by
  by_contra outside
  have ended : program[indexAfter program earlier]? = none :=
    List.getElem?_eq_none (Nat.le_of_not_lt outside)
  rw [(firstIssued_of_ended ended (Nat.le_of_lt before)).1] at full
  exact absurd (length_firstIssued_le program earlier) (by omega)

/-- Whether the manager of a side of a unit is one of those that an instruction concerns: that of the
output that it moves from or that of the input that it moves to, where these are not null. -/
def IsFor (instruction : Instruction) (post : UInt8 × Side) : Prop :=
  ∃ address, (address, post.2) ∈ instruction.ends ∧ address.isNull = false ∧ address.unit = post.1

theorem concerns_iff_isFor {instruction : Instruction} {post : UInt8 × Side} :
    instruction.concerns post = true ↔ instruction.IsFor post := by
  obtain ⟨unit, side⟩ := post
  cases instruction <;> cases side <;> simp [concerns, Effect.of?, IsFor, ends, and_comm]

end Instruction

open Instruction (firstIssued indexAfter)

namespace Network

/-- The network after an instruction was issued to all managers that it concerns. -/
def issue (network : Network) (instruction : Instruction) : Network :=
  { network with
    inbox := fun post =>
      if instruction.concerns post then network.inbox post ++ [instruction]
      else network.inbox post
    pc := instruction.next network.pc
    issued := network.issued + 1 }

end Network

namespace Machine

variable {topology : Topology} {image : Image} {program log : List Instruction}
  {loaded machine after : Machine} {report : RunReport}

/-! ## One step of dispatch -/

/-- What going on in a program can come to. -/
inductive Dispatched (program : List Instruction) (machine : Machine) : Stepped Machine → Prop where
  /-- The program was at its end before, or some manager concerned has no room. -/
  | rests : Dispatched program machine (.idle machine)
  | halts (ended : program[machine.pc]? = none) :
      Dispatched program machine (.progress { machine with halted := true })
  | issues {instruction : Instruction} {after : Machine}
      (next : program[machine.pc]? = some instruction)
      (becomes : after.network = machine.network.issue instruction) :
      Dispatched program machine (.progress after)

theorem dispatch_cases (suits : machine.Suits program) :
    Dispatched program machine machine.dispatch := by
  rw [dispatch]
  split
  · exact .rests
  · split
    · exact .rests
    · rename_i held holds
      obtain rfl := Option.some.inj (suits.loaded.symm.trans holds)
      cases next : program[machine.pc]? with
      | none => exact .halts next
      | some instruction =>
        have moves (goesOn : instruction.next machine.network.pc = machine.pc + 1) :
            Dispatched program machine (machine.issue instruction) := by
          rcases issue_cases suits (List.mem_of_getElem? next) with
            idle | ⟨units, issues, -, -, becomes⟩
          · rw [idle]
            exact .rests
          · have after :
                { machine with units, pc := machine.pc + 1, issued := machine.issued + 1 }.network =
                { { machine with units }.network with
                  pc := machine.pc + 1, issued := machine.issued + 1 } := rfl
            rw [issues]
            refine .issues next ?_
            rw [after, becomes, Network.issue, goesOn]
            rfl
        cases instruction with
        | jump target =>
          have nobody : (Instruction.jump target).concerns = fun _ => false := rfl
          refine .issues next ?_
          simp only [Network.issue, nobody]
          rfl
        | move | immediate => exact moves rfl

/-- The instruction that a round issues, if any. -/
def issuing (machine : Machine) : Option Instruction :=
  if machine.dispatch.state.issued = machine.issued then none
  else machine.program.bind (·[machine.pc]?)

/-- A round issues nothing, or the instruction that the program is at. -/
theorem issuing_cases (suits : machine.Suits program) :
    (machine.issuing = none ∧ machine.dispatch.state.issued = machine.issued ∧
      machine.dispatch.state.network.inbox = machine.network.inbox) ∨
    ∃ instruction, program[machine.pc]? = some instruction ∧ machine.issuing = some instruction ∧
      machine.dispatch.state.network = machine.network.issue instruction := by
  have outcome := dispatch_cases suits
  rw [issuing]
  generalize machine.dispatch = stepped at outcome ⊢
  cases outcome with
  | rests | halts => exact .inl ⟨if_pos rfl, rfl, rfl⟩
  | @issues instruction after next becomes =>
    have counted : after.issued = machine.issued + 1 := congrArg Network.issued becomes
    refine .inr ⟨instruction, next, ?_, becomes⟩
    rw [suits.loaded, if_neg]
    · exact next
    · show after.issued ≠ machine.issued
      omega

/-- Whether the next round issues to all managers concerned or to none: going on in the program ends
in no fault, and what it issues comes into their inboxes and into no others. -/
structure IssuesAtOnce (machine : Machine) : Prop where
  sound : ∃ progressed, machine.dispatch.report = .ok progressed
  none : machine.issuing = none →
    machine.dispatch.state.network.inbox = machine.network.inbox
  concerned : ∀ instruction, machine.issuing = some instruction → ∀ post, instruction.IsFor post →
    machine.dispatch.state.network.inbox post = machine.network.inbox post ++ [instruction]
  others : ∀ instruction, machine.issuing = some instruction → ∀ post, ¬instruction.IsFor post →
    machine.dispatch.state.network.inbox post = machine.network.inbox post

theorem Suits.issuesAtOnce (suits : machine.Suits program) : machine.IssuesAtOnce := by
  have sound : ∃ progressed, machine.dispatch.report = .ok progressed := by
    have outcome := dispatch_cases suits
    generalize machine.dispatch = stepped at outcome ⊢
    cases outcome with
    | rests => exact ⟨false, rfl⟩
    | halts | issues => exact ⟨true, rfl⟩
  rcases issuing_cases suits with ⟨nothing, -, same⟩ | ⟨issued, -, isIssued, becomes⟩
  · refine ⟨sound, fun _ => same, ?_, ?_⟩ <;>
      · intro instruction isIssued
        rw [nothing] at isIssued
        cases isIssued
  · refine ⟨sound, fun nothing => ?_, ?_, ?_⟩
    · rw [isIssued] at nothing
      cases nothing
    · intro instruction again post concerned
      obtain rfl := Option.some.inj (isIssued.symm.trans again)
      rw [becomes]
      exact if_pos (Instruction.concerns_iff_isFor.mpr concerned)
    · intro instruction again post unconcerned
      obtain rfl := Option.some.inj (isIssued.symm.trans again)
      rw [becomes]
      exact if_neg fun concerned => unconcerned (Instruction.concerns_iff_isFor.mp concerned)

/-! ## What is issued on the way -/

/-- What a machine can come to after a program was loaded, with the instructions issued by the rounds
on the way. -/
inductive Issues (loaded : Machine) : List Instruction → Machine → Prop where
  | loaded : Issues loaded [] loaded
  | round {log : List Instruction} {machine : Machine} (earlier : Issues loaded log machine) :
      Issues loaded (log ++ machine.issuing.toList) machine.round.state
  | write {log : List Instruction} {machine after : Machine} {offset : Nat} {values : List Word}
      (earlier : Issues loaded log machine)
      (writes : machine.writeMemory offset values = .ok after) : Issues loaded log after

theorem Issues.runs (issues : Issues loaded log machine) : Runs loaded machine := by
  induction issues with
  | loaded => exact .loaded
  | round _ ih => exact ih.round
  | write _ writes ih => exact ih.write writes

/-- What is issued in the rounds of a log. -/
def Log.issued (log : Log) : List Instruction := log.flatMap fun machine => machine.issuing.toList

theorem Logs.issues {rounds : Log} (logs : Logs loaded rounds machine) :
    Issues loaded rounds.issued machine := by
  induction logs with
  | loaded => exact .loaded
  | round _ ih =>
    rw [Log.issued, List.flatMap_append, List.flatMap_singleton]
    exact ih.round
  | write _ writes ih => exact ih.write writes

theorem Runs.exists_issues (runs : Runs loaded machine) : ∃ log, Issues loaded log machine := by
  induction runs with
  | loaded => exact ⟨[], .loaded⟩
  | round _ ih =>
    obtain ⟨log, issues⟩ := ih
    exact ⟨_, issues.round⟩
  | write _ writes ih =>
    obtain ⟨log, issues⟩ := ih
    exact ⟨log, issues.write writes⟩

/-- Where the program is at depends on the number of instructions issued only. -/
theorem Fresh.pc_eq (fresh : Fresh topology program loaded) (runs : Runs loaded machine) :
    machine.pc = indexAfter program machine.issued ∧
      (firstIssued program machine.issued).length = machine.issued := by
  obtain ⟨-, history, evolves⟩ := fresh.evolves runs
  obtain ⟨issued, pc, length⟩ := evolves.issued_eq fresh.blank
  rw [issued] at length
  exact ⟨pc, length⟩

/-- What is issued is the front of the path. -/
theorem Fresh.log_eq (fresh : Fresh topology program loaded) (issues : Issues loaded log machine) :
    log = firstIssued program machine.issued := by
  induction issues with
  | loaded =>
    have nothing : loaded.issued = 0 := fresh.blank.issued
    rw [nothing]
    rfl
  | @round log machine earlier ih =>
    have after : machine.round.state.issued = machine.dispatch.state.issued :=
      round_keeps Machine.issued (fun _ => rfl) fun _ => rfl
    rw [after]
    rcases issuing_cases (fresh.suits_of_runs earlier.runs) with
      ⟨nothing, same, -⟩ | ⟨instruction, next, isIssued, becomes⟩
    · rw [nothing, same, ih, Option.toList_none, List.append_nil]
    · have counted : machine.dispatch.state.issued = machine.issued + 1 :=
        congrArg Network.issued becomes
      rw [(fresh.pc_eq earlier.runs).1] at next
      rw [isIssued, counted, Instruction.firstIssued_succ, next, ih]
  | write _ writes ih =>
    obtain ⟨memory, -, rfl⟩ := writeMemory_spec writes
    exact ih

/-! ## All runs of an image -/

/-- Whether a machine has just loaded an image, whatever its topology is and whatever it has been
through. -/
def Loads (image : Image) (loaded : Machine) : Prop :=
  ∃ topology config built before, ofTopology topology config = .ok built ∧ Session built before ∧
    before.load image = .ok loaded

/-- Whether a run of an image, on some machine that has loaded it, leaves a machine and is reported
complete. -/
def Completes (image : Image) (after : Machine) (report : RunReport) : Prop :=
  ∃ loaded machine, Loads image loaded ∧ Runs loaded machine ∧
    machine.run = (after, .ok report) ∧ report.outcome = .completed

theorem Loads.fresh (loads : Loads image loaded) (decodes : image.program = .ok program) :
    ∃ topology, Fresh topology program loaded := by
  obtain ⟨topology, config, built, before, builds, session, isLoaded⟩ := loads
  exact ⟨topology, session.fresh builds isLoaded decodes⟩

/-- A complete run has come to the end of the path. -/
theorem Completes.endsAfter (completes : Completes image after report)
    (decodes : image.program = .ok program) :
    Instruction.EndsAfter program report.issued ∧ after.pc = indexAfter program report.issued := by
  obtain ⟨loaded, machine, loads, runs, ends, completed⟩ := completes
  obtain ⟨topology, fresh⟩ := loads.fresh decodes
  obtain ⟨isCompleted, -, runsAfter, steps, rfl⟩ := fresh.completed_of_run runs ends completed
  obtain ⟨-, historyAfter, evolvesAfter⟩ := fresh.evolves runsAfter
  obtain ⟨pc, length⟩ := fresh.pc_eq runsAfter
  have ended : program.length ≤ after.pc :=
    List.getElem?_eq_none_iff.mp (evolvesAfter.ended fresh.blank isCompleted.halted)
  rw [pc] at ended
  exact ⟨⟨ended, fun earlier => Instruction.indexAfter_lt_of_length length⟩, pc⟩

/-- Issuing follows the program alone. For all machines that have loaded an image, with any topology
and memory, and in all their runs,

* what is issued is the front of the path of the program, one instruction is issued in a round at
  most, and it is issued to all managers that it concerns or to none,
* of what is issued in two runs one is a prefix of the other,
* a complete run has come to the end of the path, so its program counter and the number of its
  instructions are those of every other complete run, and
* no run is complete if the path has no end. -/
theorem issue_follows_program (decodes : image.program = .ok program) :
    (∀ loaded machine, Loads image loaded → Runs loaded machine →
      machine.IssuesAtOnce ∧ (∃ log, Issues loaded log machine) ∧
      ∀ log, Issues loaded log machine →
        log = firstIssued program log.length ∧ log.length = machine.issued ∧
          machine.pc = indexAfter program log.length) ∧
    (∀ loaded machine log loadedOther machineOther logOther,
      Loads image loaded → Issues loaded log machine →
      Loads image loadedOther → Issues loadedOther logOther machineOther →
      log <+: logOther ∨ logOther <+: log) ∧
    (∀ after report, Completes image after report →
      Instruction.EndsAfter program report.issued ∧ after.pc = indexAfter program report.issued ∧
      ∀ afterOther reportOther, Completes image afterOther reportOther →
        report.issued = reportOther.issued ∧ after.pc = afterOther.pc) ∧
    ((∀ count, indexAfter program count < program.length) →
      ∀ after report, ¬Completes image after report) := by
  refine ⟨?_, ?_, ?_, ?_⟩
  · intro loaded machine loads runs
    obtain ⟨topology, fresh⟩ := loads.fresh decodes
    refine ⟨(fresh.suits_of_runs runs).issuesAtOnce, runs.exists_issues, fun log issues => ?_⟩
    obtain ⟨pc, length⟩ := fresh.pc_eq runs
    have front := fresh.log_eq issues
    have count : log.length = machine.issued := by rw [front, length]
    rw [count]
    exact ⟨front, rfl, pc⟩
  · intro loaded machine log loadedOther machineOther logOther loads issues loadsOther issuesOther
    obtain ⟨topology, fresh⟩ := loads.fresh decodes
    obtain ⟨topologyOther, freshOther⟩ := loadsOther.fresh decodes
    rw [fresh.log_eq issues, freshOther.log_eq issuesOther]
    exact (Nat.le_total machine.issued machineOther.issued).imp Instruction.firstIssued_prefix
      Instruction.firstIssued_prefix
  · intro after report completes
    obtain ⟨ends, pc⟩ := completes.endsAfter decodes
    refine ⟨ends, pc, fun afterOther reportOther completesOther => ?_⟩
    obtain ⟨endsOther, pcOther⟩ := completesOther.endsAfter decodes
    have same := ends.unique endsOther
    exact ⟨same, by rw [pc, pcOther, same]⟩
  · intro endless after report completes
    exact absurd (completes.endsAfter decodes).1.ended (Nat.not_le_of_lt (endless report.issued))

theorem relay_issue_follows_program :
    ∃ (built loaded builtOther loadedOther : Machine) (log logOther : List Instruction)
      (report reportOther : RunReport),
      ofTopology (.relay ⟨1, by decide, by decide⟩) .default = .ok built ∧
      ofTopology (.relay ⟨2, by decide, by decide⟩) .default = .ok builtOther ∧
      built.load (.ofProgram Instruction.relayed) = .ok loaded ∧
      builtOther.load (.ofProgram Instruction.relayed) = .ok loadedOther ∧
      (Image.ofProgram Instruction.relayed).program = .ok Instruction.relayed ∧
      Issues loaded log loaded.round.state ∧
      Issues loadedOther logOther loadedOther.round.state.round.state ∧
      (log <+: logOther ∨ logOther <+: log) ∧
      Completes (.ofProgram Instruction.relayed) loaded.run.1 report ∧
      Completes (.ofProgram Instruction.relayed) loadedOther.run.1 reportOther ∧
      report.issued = reportOther.issued ∧ loaded.run.1.pc = loadedOther.run.1.pc := by
  obtain ⟨built, loaded, builds, loads, completes⟩ := relay_completes (.inl rfl)
  obtain ⟨builtOther, loadedOther, buildsOther, loadsOther, completesOther⟩ :=
    relay_completes (.inr rfl)
  have isLoaded : Loads (.ofProgram Instruction.relayed) loaded :=
    ⟨_, _, built, built, builds, .built, loads⟩
  have isLoadedOther : Loads (.ofProgram Instruction.relayed) loadedOther :=
    ⟨_, _, builtOther, builtOther, buildsOther, .built, loadsOther⟩
  have isComplete : Completes (.ofProgram Instruction.relayed) loaded.run.1 _ :=
    ⟨loaded, loaded, isLoaded, .loaded, Prod.ext rfl completes, rfl⟩
  have isCompleteOther : Completes (.ofProgram Instruction.relayed) loadedOther.run.1 _ :=
    ⟨loadedOther, loadedOther, isLoadedOther, .loaded, Prod.ext rfl completesOther, rfl⟩
  have issues : Issues loaded _ loaded.round.state := Issues.loaded.round
  have issuesOther : Issues loadedOther _ loadedOther.round.state.round.state :=
    Issues.loaded.round.round
  obtain ⟨-, compares, agrees, -⟩ := issue_follows_program Image.program_relayed
  exact ⟨built, loaded, builtOther, loadedOther, _, _, _, _, builds, buildsOther, loads, loadsOther,
    Image.program_relayed, issues, issuesOther,
    compares _ _ _ _ _ _ isLoaded issues isLoadedOther issuesOther, isComplete, isCompleteOther,
    (agrees _ _ isComplete).2.2 _ _ isCompleteOther⟩

end Machine
end MoveMachine
