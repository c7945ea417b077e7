import MoveMachine.Host
import MoveMachine.Proofs.Machine.RoundBudget
import MoveMachine.Proofs.Machine.Stillness

/-!
# Runs that are resumed

A round says exactly whether it changed anything (`Machine.progress_exact`). Without
progress it leaves the machine as it was, and with progress something has moved, for
an instruction was issued or the budget of the machine was spent
(`Machine.Fresh.round_changes`).

So a run that has come to its end stays there, however often it is run again
(`Machine.Session.run_final`). A run that was cut off by its limit goes on where it
was (`Machine.run_of_stepLimit`), as a round knows nothing of the limit
(`Machine.round_limited`) and nothing of the rounds before it
(`Machine.runFrom_delayed`).
-/

set_option autoImplicit false

namespace MoveMachine

/-! ## Steps -/

namespace Stepped

variable {State Other : Type}

/-- Two steps after each other make no progress if neither does. -/
theorem report_andThen_iff (first : Stepped State) (next : State → Stepped State) :
    (first.andThen next).report = .ok false ↔
      first.report = .ok false ∧ (next first.state).report = .ok false := by
  obtain ⟨after, report⟩ := first
  cases report with
  | error cause => simp [andThen, fault]
  | ok progressed => cases second : (next after).report <;> simp [andThen, second, Except.map]

/-- A step of the whole after another is one of the part if the second step is. -/
theorem andThen_map {embed : State → Other} {next : State → Stepped State}
    {nextOther : Other → Stepped Other}
    (embeds : ∀ state, nextOther (embed state) = (next state).map embed) (first : Stepped State) :
    (first.map embed).andThen nextOther = (first.andThen next).map embed := by
  obtain ⟨after, report⟩ := first
  cases report with
  | error cause => rfl
  | ok progressed => simp only [andThen, Stepped.map, embeds]

end Stepped

/-- A report in which so many more rounds were done. -/
def RunReport.delayed (report : RunReport) (rounds : Nat) : RunReport :=
  { report with steps := rounds + report.steps }

namespace Machine

variable {topology : Topology} {config : Config} {program : List Instruction}
  {built loaded machine after : Machine} {report : RunReport} {done left : Nat}

/-! ## Rounds that report progress -/

theorem stepUnits_report_iff (units : List ProcessingUnit) (shared : Shared) :
    (stepUnits units shared).report = .ok false ↔
      ∀ unit ∈ units, (unit.step shared).report = .ok false := by
  induction units with
  | nil => simp [stepUnits, Stepped.idle]
  | cons unit later ih =>
    have first := ProcessingUnit.step_rests unit shared
    rw [stepUnits, List.forall_mem_cons, ← ih]
    generalize unit.step shared = stepped at first ⊢
    obtain ⟨⟨kept, sharing⟩, result⟩ := stepped
    cases result with
    | error fault => simp [Stepped.fault]
    | ok progressed =>
      cases progressed with
      | true => cases rest : (stepUnits later sharing).report <;> simp [rest, Except.map]
      | false =>
        obtain ⟨same, -⟩ := first rfl
        obtain ⟨rfl, rfl⟩ := Prod.mk.inj same
        cases rest : (stepUnits later sharing).report <;> simp [rest, Except.map]

/-- A round makes no progress exactly if none of its parts has anything to do in the machine as it
is. -/
theorem round_report_iff (machine : Machine) :
    machine.round.report = .ok false ↔
      machine.dispatch.report = .ok false ∧
        (∀ unit ∈ machine.units, (unit.step machine.shared).report = .ok false) ∧
          machine.deliver.report = .ok false := by
  rw [round, Stepped.report_andThen_iff, Stepped.report_andThen_iff, and_assoc]
  refine and_congr_right fun idle => ?_
  obtain ⟨same, -⟩ := dispatch_rests idle
  rw [same, ← stepUnits_report_iff]
  refine and_congr_right fun still => ?_
  obtain ⟨sameAfter, -⟩ := (dispatch_rests.andThen fun _ => work_rests)
    ((Stepped.report_andThen_iff _ _).mpr ⟨idle, by rw [same]; exact still⟩)
  rw [sameAfter]

/-- A round that makes progress changes the machine: if it issues nothing, it spends the budget. -/
theorem Fresh.round_changes (fresh : Fresh topology program loaded) (runs : Runs loaded machine)
    (busy : machine.round.report = .ok true) : machine.round.state ≠ machine := by
  obtain ⟨count, issued, spends⟩ := fresh.round_spends runs
  intro same
  have within := spends true busy
  rw [same] at issued within
  have oneMore : true.toNat = 1 := rfl
  omega

theorem Session.round_changes (builds : ofTopology topology config = .ok built)
    (session : Session built machine) (ready : machine.isReady = true)
    (busy : machine.round.report = .ok true) : machine.round.state ≠ machine := by
  rcases (session.follows builds).2 with ⟨none, -⟩ | ⟨program, loaded, fresh, runs⟩
  · rw [isReady, none] at ready
    cases ready
  · exact fresh.round_changes runs busy

/-! ## Runs that came to their end -/

/-- A run that ends by itself ends with a round without progress, in which nothing changed. -/
theorem runFrom_final (ends : machine.runFrom done left = (after, .ok report))
    (final : report.outcome ≠ .stepLimit) :
    after.round.report = .ok false ∧ ∃ steps, report =
      after.report (if after.isFinished then .completed else .stalled) steps := by
  induction left generalizing machine done with
  | zero =>
    obtain rfl := Except.ok.inj (Prod.mk.inj ends).2
    exact absurd rfl final
  | succ left ih =>
    rw [runFrom] at ends
    cases reported : machine.round.report with
    | error cause =>
      simp only [reported] at ends
      cases (Prod.mk.inj ends).2
    | ok progressed =>
      simp only [reported] at ends
      cases progressed with
      | true => exact ih ends
      | false =>
        obtain ⟨rfl, reports⟩ := Prod.mk.inj ends
        obtain ⟨same, -⟩ := round_rests reported
        refine ⟨by rw [same]; exact reported, done + 1, (Except.ok.inj reports).symm⟩

/-- A machine that makes no progress reports so after one round. -/
theorem runFrom_of_idle (idle : machine.round.report = .ok false) (done left : Nat) :
    machine.runFrom done (left + 1) =
      (machine, .ok (machine.report
        (if machine.isFinished then .completed else .stalled) (done + 1))) := by
  obtain ⟨same, -⟩ := round_rests idle
  rw [runFrom]
  simp only [idle, same]

/-- A machine that is run is ready, and what it is made of stays. -/
theorem Session.resembles_run (builds : ofTopology topology config = .ok built)
    (session : Session built machine) (ready : machine.isReady = true) :
    machine.Resembles machine.run.1 := by
  rcases (session.follows builds).2 with ⟨none, -⟩ | ⟨program, loaded, fresh, runs⟩
  · rw [isReady, none] at ready
    cases ready
  · obtain ⟨before, -⟩ := fresh.evolves runs
    obtain ⟨later, -⟩ := fresh.evolves runs.run
    exact ⟨later.topology.trans before.topology.symm, later.config.trans before.config.symm,
      later.program.trans before.program.symm, later.units.trans before.units.symm⟩

theorem run_of_ready (ready : machine.isReady = true) :
    machine.run = machine.runFrom 0 machine.config.maxSteps := by
  rw [run, if_pos ready]

theorem isReady_of_run (ends : machine.run = (after, .ok report)) : machine.isReady = true := by
  by_contra unready
  rw [run, if_neg unready] at ends
  cases (Prod.mk.inj ends).2

/-- A run that came to its end stays there: the next one finds so in its first round. -/
theorem Session.run_final (builds : ofTopology topology config = .ok built)
    (session : Session built machine) (ends : machine.run = (after, .ok report))
    (final : report.outcome ≠ .stepLimit) :
    after.run = (after, .ok { report with steps := 1 }) := by
  have ready := isReady_of_run ends
  have same := session.resembles_run builds ready
  rw [ends] at same
  have readyAfter : after.isReady = true := by
    rw [isReady, same.program]
    exact ready
  rw [run_of_ready ready] at ends
  obtain ⟨idle, steps, rfl⟩ := runFrom_final ends final
  obtain ⟨left, enough⟩ : ∃ left, machine.config.maxSteps = left + 1 := by
    refine Nat.exists_eq_add_one_of_ne_zero fun none => ?_
    rw [none] at ends
    exact final (congrArg RunReport.outcome (Except.ok.inj (Prod.mk.inj ends).2).symm)
  rw [run_of_ready readyAfter, same.config, enough, runFrom_of_idle idle]
  rfl

/-! ## Runs that were cut off -/

/-- Rounds already done are only counted. -/
theorem runFrom_delayed (machine : Machine) (rounds done left : Nat) :
    machine.runFrom (rounds + done) left =
      ((machine.runFrom done left).1, (machine.runFrom done left).2.map (·.delayed rounds)) := by
  induction left generalizing machine done with
  | zero => rfl
  | succ left ih =>
    rw [runFrom, runFrom]
    cases reported : machine.round.report with
    | error cause => rfl
    | ok progressed =>
      cases progressed with
      | true => exact ih machine.round.state (done + 1)
      | false => rfl

/-- A run that is cut off has done all rounds up to its limit, and a run with a larger limit goes on
from there. -/
theorem runFrom_of_stepLimit (ends : machine.runFrom done left = (after, .ok report))
    (cutOff : report.outcome = .stepLimit) (more : Nat) :
    report.steps = done + left ∧
      machine.runFrom done (left + more) = after.runFrom (done + left) more := by
  induction left generalizing machine done with
  | zero =>
    obtain ⟨rfl, reports⟩ := Prod.mk.inj ends
    obtain rfl := Except.ok.inj reports
    exact ⟨rfl, by rw [Nat.zero_add, Nat.add_zero]⟩
  | succ left ih =>
    rw [Nat.add_right_comm, runFrom]
    rw [runFrom] at ends
    cases reported : machine.round.report with
    | error cause =>
      simp only [reported] at ends
      cases (Prod.mk.inj ends).2
    | ok progressed =>
      simp only [reported] at ends
      cases progressed with
      | true =>
        obtain ⟨steps, goesOn⟩ := ih ends
        rw [Nat.add_right_comm done 1, Nat.add_assoc done left] at steps goesOn
        exact ⟨steps, goesOn⟩
      | false =>
        obtain rfl := Except.ok.inj (Prod.mk.inj ends).2
        simp only [Machine.report] at cutOff
        split at cutOff <;> cases cutOff

/-- The machine after a number of rounds. -/
def afterRounds (machine : Machine) : (count : Nat) → Machine
  | 0 => machine
  | count + 1 => machine.round.state.afterRounds count

/-- A run without a fault is cut off exactly if all its rounds made progress. -/
theorem runFrom_stepLimit_iff (ends : machine.runFrom done left = (after, .ok report)) :
    report.outcome = .stepLimit ↔
      ∀ count < left, (machine.afterRounds count).round.report = .ok true := by
  induction left generalizing machine done with
  | zero =>
    obtain rfl := Except.ok.inj (Prod.mk.inj ends).2
    simp [Machine.report]
  | succ left ih =>
    rw [runFrom] at ends
    cases reported : machine.round.report with
    | error cause =>
      simp only [reported] at ends
      cases (Prod.mk.inj ends).2
    | ok progressed =>
      simp only [reported] at ends
      cases progressed with
      | true =>
        rw [ih ends, Nat.forall_lt_succ_left]
        exact (and_iff_right reported).symm
      | false =>
        obtain rfl := Except.ok.inj (Prod.mk.inj ends).2
        refine iff_of_false ?_ fun busy => ?_
        · intro cutOff
          simp only [Machine.report] at cutOff
          split at cutOff <;> cases cutOff
        · have first := busy 0 (Nat.succ_pos left)
          rw [afterRounds, reported] at first
          cases first

/-! ## Other limits -/

/-- The machine with another limit on the rounds of a run. -/
def limited (maxSteps : Nat) (machine : Machine) : Machine :=
  { machine with config := { machine.config with maxSteps } }

theorem issue_limited (maxSteps : Nat) (machine : Machine) (instruction : Instruction) :
    (machine.limited maxSteps).issue instruction =
      (machine.issue instruction).map (limited maxSteps) := by
  have units : (machine.limited maxSteps).units = machine.units := rfl
  simp only [issue, units]
  cases canIssue machine.units (targets instruction) with
  | error fault => rfl
  | ok ready =>
    cases ready with
    | false => rfl
    | true => cases issueToAll instruction (targets instruction) machine.units <;> rfl

theorem dispatch_limited (maxSteps : Nat) (machine : Machine) :
    (machine.limited maxSteps).dispatch = machine.dispatch.map (limited maxSteps) := by
  have halted : (machine.limited maxSteps).halted = machine.halted := rfl
  have holds : (machine.limited maxSteps).program = machine.program := rfl
  have pc : (machine.limited maxSteps).pc = machine.pc := rfl
  simp only [dispatch, halted, holds, pc]
  cases machine.halted with
  | true => rfl
  | false =>
    cases machine.program with
    | none => rfl
    | some program =>
      simp only [Bool.false_eq_true, if_false]
      cases program[machine.pc]? with
      | none => rfl
      | some instruction =>
        cases instruction with
        | jump target => rfl
        | move | immediate => exact issue_limited maxSteps machine _

/-- A round knows nothing of the limit. -/
theorem round_limited (maxSteps : Nat) (machine : Machine) :
    (machine.limited maxSteps).round = machine.round.map (limited maxSteps) := by
  have worked (machine : Machine) :
      (machine.limited maxSteps).work = machine.work.map (limited maxSteps) := rfl
  have delivered (machine : Machine) :
      (machine.limited maxSteps).deliver = machine.deliver.map (limited maxSteps) := rfl
  rw [round, round, dispatch_limited, Stepped.andThen_map worked, Stepped.andThen_map delivered]

theorem runFrom_limited (maxSteps : Nat) (machine : Machine) (done left : Nat) :
    (machine.limited maxSteps).runFrom done left =
      ((machine.runFrom done left).1.limited maxSteps, (machine.runFrom done left).2) := by
  induction left generalizing machine done with
  | zero => rfl
  | succ left ih =>
    rw [runFrom, runFrom, round_limited]
    simp only [Stepped.map]
    cases reported : machine.round.report with
    | error cause => rfl
    | ok progressed =>
      cases progressed with
      | true => exact ih machine.round.state (done + 1)
      | false => rfl

/-- A run that is cut off goes on as if its limit had been larger. -/
theorem run_of_stepLimit (ends : machine.run = (after, .ok report))
    (cutOff : report.outcome = .stepLimit) (more : Nat) :
    (machine.limited (machine.config.maxSteps + more)).run =
      ((after.runFrom 0 more).1.limited (machine.config.maxSteps + more),
        (after.runFrom 0 more).2.map (·.delayed report.steps)) := by
  have ready := isReady_of_run ends
  have starts : (machine.limited (machine.config.maxSteps + more)).run =
      (machine.limited (machine.config.maxSteps + more)).runFrom 0
        (machine.config.maxSteps + more) := run_of_ready ready
  rw [run_of_ready ready] at ends
  obtain ⟨steps, goesOn⟩ := runFrom_of_stepLimit ends cutOff more
  have counted := runFrom_delayed after report.steps 0 more
  rw [Nat.zero_add] at steps goesOn
  rw [Nat.add_zero, steps] at counted
  rw [starts, runFrom_limited, goesOn, counted, steps]

/-! ## Progress is reported exactly -/

/-- After a run that came to its end, every further run is served the same report. -/
theorem Session.serveAll_final (builds : ofTopology topology config = .ok built)
    (session : Session built machine) (ends : machine.run = (after, .ok report))
    (final : report.outcome ≠ .stepLimit) (count : Nat) :
    after.serveAll (List.replicate count .run) =
      (after, List.replicate count (.ok (.report { report with steps := 1 }))) := by
  have again := session.run_final builds ends final
  induction count with
  | zero => rfl
  | succ count ih =>
    simp only [List.replicate_succ, Machine.serveAll, Machine.serve, again, ih]
    rfl

/-- Progress is reported exactly, so runs can be resumed and do not go on after their end. At any
time in a session

* a round makes no progress exactly if nothing can be issued, no unit can do a step and nothing
  arrives; it then leaves the machine as it was, and otherwise, unless it ends in a fault, it
  changes the machine,
* once a run was complete or stalled, every further run reports the same after one round and
  changes nothing,
* if a run is cut off, it and the next one together are the run with twice the limit, in the state,
  the fault or the report, and the number of rounds, and
* a run without a fault is cut off exactly if all its rounds made progress. -/
theorem progress_exact (builds : ofTopology topology config = .ok built)
    (session : Session built machine) :
    ((machine.round.report = .ok false ↔
        machine.dispatch.report = .ok false ∧
          (∀ unit ∈ machine.units, (unit.step machine.shared).report = .ok false) ∧
            machine.deliver.report = .ok false) ∧
      (machine.round.report = .ok false → machine.round.state = machine) ∧
      (machine.isReady = true → machine.round.report = .ok true →
        machine.round.state ≠ machine)) ∧
    (∀ after report, machine.run = (after, .ok report) →
      report.outcome = .completed ∨ report.outcome = .stalled →
      ∀ count, after.serveAll (List.replicate count .run) =
        (after, List.replicate count (.ok (.report { report with steps := 1 })))) ∧
    (∀ middle report, machine.run = (middle, .ok report) → report.outcome = .stepLimit →
      (machine.limited (2 * machine.config.maxSteps)).run =
        (middle.run.1.limited (2 * machine.config.maxSteps),
          middle.run.2.map (·.delayed report.steps))) ∧
    ∀ report, machine.run.2 = .ok report →
      (report.outcome = .stepLimit ↔
        ∀ count < machine.config.maxSteps,
          (machine.afterRounds count).round.report = .ok true) := by
  refine ⟨⟨round_report_iff machine, fun idle => (round_rests idle).1,
    session.round_changes builds⟩, ?_, ?_, ?_⟩
  · intro after report ends final
    refine session.serveAll_final builds ends ?_
    rcases final with completed | stalled
    · rw [completed]
      nofun
    · rw [stalled]
      nofun
  · intro middle report ends cutOff
    have ready := isReady_of_run ends
    have same := session.resembles_run builds ready
    rw [ends] at same
    have readyMiddle : middle.isReady = true := by
      rw [isReady, same.program]
      exact ready
    rw [Nat.two_mul, run_of_stepLimit ends cutOff, run_of_ready readyMiddle, same.config]
  · intro report reports
    have ends : machine.run = (machine.run.1, .ok report) := Prod.ext rfl reports
    have ready := isReady_of_run ends
    rw [run_of_ready ready] at ends
    exact runFrom_stepLimit_iff ends

theorem relay_progress_exact :
    ∃ built loaded middle after : Machine,
      ofTopology (.relay ⟨1, by decide, by decide⟩) ⟨3, 4⟩ = .ok built ∧
      built.load (.ofProgram Instruction.relayed) = .ok loaded ∧
      loaded.run = (middle, .ok ⟨.stepLimit, 3, 2, 1, 0, []⟩) ∧
      middle.run = (after, .ok ⟨.completed, 2, 2, 1, 0, [.ofNat 7]⟩) ∧
      (loaded.limited 6).run = (after.limited 6, .ok ⟨.completed, 5, 2, 1, 0, [.ofNat 7]⟩) ∧
      after.serveAll [.run, .run] =
        (after, List.replicate 2 (.ok (.report ⟨.completed, 1, 2, 1, 0, [.ofNat 7]⟩))) := by
  obtain ⟨built, loaded, middle, after, builds, loads, limit, cutOff, ends⟩ :
      ∃ built loaded middle after : Machine,
        ofTopology (.relay ⟨1, by decide, by decide⟩) ⟨3, 4⟩ = .ok built ∧
        built.load (.ofProgram Instruction.relayed) = .ok loaded ∧
        loaded.config.maxSteps = 3 ∧
        loaded.run = (middle, .ok ⟨.stepLimit, 3, 2, 1, 0, []⟩) ∧
        middle.run = (after, .ok ⟨.completed, 2, 2, 1, 0, [.ofNat 7]⟩) :=
    ⟨_, _, _, _, rfl, rfl, rfl, rfl, rfl⟩
  have session := (Session.built : Session built built).load loads
  have sessionMiddle := session.run builds
  rw [cutOff] at sessionMiddle
  obtain ⟨-, -, resumes, -⟩ := progress_exact builds session
  obtain ⟨-, stays, -⟩ := progress_exact builds sessionMiddle
  have whole := resumes middle _ cutOff rfl
  rw [ends, limit] at whole
  exact ⟨built, loaded, middle, after, builds, loads, cutOff, ends, whole,
    stays after _ ends (.inl rfl) 2⟩

end Machine
end MoveMachine
