import MoveMachine.Fault

/-!
# Steps

The parts of the machine work in steps. A step leaves a state and reports either
whether it made progress, which means that it changed something, or the fault it
ended in. A fault does not undo what the step did before.

Steps follow each other with `Stepped.andThen`: the first fault ends the
sequence, and the sequence made progress if one of its steps did.
-/

set_option autoImplicit false

namespace MoveMachine

/-- What a step leaves behind. -/
structure Stepped (State : Type) where
  /-- The state after the step. -/
  state : State
  /-- Whether the step made progress, or the fault it ended in. -/
  report : Except Fault Bool

namespace Stepped

variable {State Other : Type}

/-- A step that finds nothing to do. -/
@[inline] def idle (state : State) : Stepped State := ⟨state, .ok false⟩

/-- A step that makes progress. -/
@[inline] def progress (state : State) : Stepped State := ⟨state, .ok true⟩

/-- A step that ends in a fault. -/
@[inline] def fault (state : State) (fault : Fault) : Stepped State := ⟨state, .error fault⟩

/-- A step that makes progress if an operation succeeds; otherwise it ends in the operation's fault,
and what it had taken before is gone. -/
@[inline] def attempt (taken : State) : Except Fault State → Stepped State
  | .ok state => progress state
  | .error fault => .fault taken fault

/-- One step after another. -/
@[inline] def andThen (first : Stepped State) (next : State → Stepped State) : Stepped State :=
  match first.report with
  | .error fault => .fault first.state fault
  | .ok progressed =>
    let second := next first.state
    ⟨second.state, second.report.map (progressed || ·)⟩

/-- A step of a part, seen from the whole. -/
@[inline] def map (embed : State → Other) (stepped : Stepped State) : Stepped Other :=
  ⟨embed stepped.state, stepped.report⟩

@[simp] theorem andThen_idle (state : State) (next : State → Stepped State) :
    (idle state).andThen next = next state := by
  simp only [andThen, idle, Bool.false_or]
  cases reported : (next state).report <;> simp [Except.map, ← reported]

@[simp] theorem andThen_fault (state : State) (cause : Fault) (next : State → Stepped State) :
    (fault state cause).andThen next = fault state cause := rfl

theorem andThen_of_ok {first : Stepped State} {progressed : Bool}
    (sound : first.report = .ok progressed) (next : State → Stepped State) :
    first.andThen next =
      ⟨(next first.state).state, (next first.state).report.map (progressed || ·)⟩ := by
  simp only [andThen, sound]

theorem andThen_of_error {first : Stepped State} {cause : Fault}
    (fails : first.report = .error cause) (next : State → Stepped State) :
    first.andThen next = fault first.state cause := by
  simp only [andThen, fails]

@[simp] theorem attempt_ok (taken state : State) :
    attempt taken (.ok state) = progress state := rfl

@[simp] theorem attempt_error (taken : State) (cause : Fault) :
    attempt taken (.error cause) = fault taken cause := rfl

end Stepped
end MoveMachine
