import MoveMachine.Proofs.Kernel.Activity
import MoveMachine.Proofs.Kernel.Firing

/-!
# The steps of a kernel

A step of a kernel, other than that of the control unit, retires the markers in front of
its inputs and then fires at most twice: it may fetch a micro-op, and it may handle an
element of work (`Kernel.step_spec`). A firing that fails ends the step.

Both kinds of firing are described by the values that they take, and neither says from
which slots (`Kernel.Fires`, `Kernel.Fails`). Fetching gives nothing out, and a firing that
fails does not either, so a step that ends in a fault changes nothing but the inputs and
the kernel itself (`Kernel.sameOutside_of_fault`).
-/

set_option autoImplicit false

namespace MoveMachine

/-! ## Steps that succeed and steps that end in a fault -/

namespace Stepped

variable {State : Type} {sound further : State → Prop} {faulty : State → Fault → Prop}

/-- Whether a step leaves a state as promised, be it that it succeeds or ends in a fault. -/
def Ends (stepped : Stepped State) (sound : State → Prop) (faulty : State → Fault → Prop) : Prop :=
  match stepped.report with
  | .ok _ => sound stepped.state
  | .error fault => faulty stepped.state fault

theorem Ends.mono {stepped : Stepped State} {faultyToo : State → Fault → Prop}
    (ends : stepped.Ends sound faulty) (implies : ∀ state, sound state → further state)
    (impliesToo : ∀ state fault, faulty state fault → faultyToo state fault) :
    stepped.Ends further faultyToo := by
  obtain ⟨state, report⟩ := stepped
  cases report with
  | error fault => exact impliesToo state fault ends
  | ok progressed => exact implies state ends

theorem Ends.andThen {first : Stepped State} {next : State → Stepped State}
    (ends : first.Ends sound faulty)
    (endsNext : ∀ state, sound state → (next state).Ends further faulty) :
    (first.andThen next).Ends further faulty := by
  obtain ⟨state, report⟩ := first
  cases report with
  | error fault => exact ends
  | ok progressed =>
    have later := endsNext state ends
    rw [Ends] at later ⊢
    simp only [Stepped.andThen]
    cases reported : (next state).report with
    | error fault =>
      rw [reported] at later
      exact later
    | ok progressedNext =>
      rw [reported] at later
      exact later

end Stepped

namespace Kernel

variable {unit : UInt8} {work after : Workspace}

/-! ## Firings -/

/-- A kernel fires: it takes a value from each of its inputs and reacts to them. -/
inductive Fires (unit : UInt8) (work : Workspace) : Workspace → Prop where
  | intro {ports : List UInt8} {words : List Word} {reaction : Reaction} {bank : Bank}
      (awaits : work.kernel.Awaits ports)
      (room : work.kernel.produces = true → work.buffers.hasRoom = true)
      (supplied : words.length = ports.length)
      (reacts : work.kernel.react unit work.memory words = .ok reaction)
      (yields : work.buffers.Yields (Bank.wordsFor ports words) bank)
      (values : bank.valuesAt = Function.update work.buffers.valuesAt Bank.result
        (work.buffers.valuesAt Bank.result ++ reaction.emitted.toList))
      (destinations : bank.destinationsAt = work.buffers.destinationsAt) :
      Fires unit work
        ⟨reaction.kernel, bank, reaction.memory, work.results ++ reaction.collected.toArray⟩

/-- A kernel cannot react to the values that it takes. -/
inductive Fails (unit : UInt8) (work : Workspace) : Workspace → Fault → Prop where
  | intro {ports : List UInt8} {words : List Word} {bank : Bank} {fault : Fault}
      (awaits : work.kernel.Awaits ports)
      (room : work.kernel.produces = true → work.buffers.hasRoom = true)
      (supplied : words.length = ports.length)
      (reacts : work.kernel.react unit work.memory words = .error fault)
      (yields : work.buffers.Yields (Bank.wordsFor ports words) bank)
      (outputs : bank.outputs = work.buffers.outputs) :
      Fails unit work { work with buffers := bank } fault

/-- There are as many values as inputs. -/
theorem length_words {taken : List (UInt8 × Slot)} {words : List Word}
    (holds : taken.map (·.2.value?) = words.map some) :
    words.length = (taken.map (·.1)).length := by
  have lengths := congrArg List.length holds
  simpa using lengths.symm

theorem Outcome.ends {stepped : Stepped Workspace} (outcome : Outcome unit work stepped) :
    stepped.Ends (fun after => after = work ∨ Fires unit work after) (Fails unit work) := by
  cases outcome with
  | idle blocked => exact .inl rfl
  | fired taken words reaction awaits room holds retires reacts emits =>
    refine .inr (.intro awaits room (length_words holds) reacts ?_ ?_ ?_)
    · have yields := retires.yields awaits.nodup holds
      simpa using yields.trans (Bank.Yields.nothing emits.inputs)
    · rw [emits.valuesAt, Bank.valuesAt_congr retires.outputs]
    · rw [emits.destinationsAt, Bank.destinationsAt_congr retires.outputs]
  | faulted taken words awaits room holds retires reacts =>
    exact .intro awaits room (length_words holds) reacts (retires.yields awaits.nodup holds)
      retires.outputs

theorem Fires.notControl (fires : Fires unit work after) (notControl : work.kernel ≠ .control) :
    after.kernel ≠ .control := by
  cases fires with
  | intro awaits room supplied reacts yields values destinations =>
    intro isControl
    have shape := (allows_of_react reacts).shape
    have type : work.kernel.type = .control := by
      rw [← type_reset, ← shape, type_reset]
      exact congrArg Kernel.type isControl
    exact notControl (eq_control_of_type type)

/-! ## Steps -/

/-- A unit in which no marker is in front of an input. -/
def cleared (work : Workspace) : Workspace :=
  { work with buffers := work.buffers.dropMarkers }

theorem dropMarkers_eq (work : Workspace) :
    ∃ progressed, dropMarkers work = ⟨cleared work, .ok progressed⟩ := by
  rw [dropMarkers]
  split
  · exact ⟨true, rfl⟩
  · rename_i noMarker
    have unchanged : work.buffers.inputs.map InputBuffer.dropMarkers = work.buffers.inputs := by
      refine (List.map_congr_left fun buffer member => ?_).trans (List.map_id _)
      have none : buffer.hasMarker = false := by
        by_contra isMarker
        exact noMarker (List.any_eq_true.mpr ⟨buffer, member, by simpa using isMarker⟩)
      obtain ⟨depth, slots⟩ := buffer
      cases slots with
      | nil => rfl
      | cons slot younger =>
        have notMarker : slot.isMarker = false := none
        simp [InputBuffer.dropMarkers, notMarker]
    refine ⟨false, ?_⟩
    rw [cleared, Bank.dropMarkers, unchanged]
    rfl

/-- A kernel fetches a micro-op. -/
def Fetches (unit : UInt8) (work after : Workspace) : Prop :=
  work.kernel.needsMicroOp = true ∧ Fires unit work after

/-- What a kernel handles the next element of work from, when markers are retired and a micro-op is
there. -/
def Prepares (unit : UInt8) (work middle : Workspace) : Prop :=
  middle = cleared work ∨ Fetches unit (cleared work) middle ∧ middle.kernel.needsMicroOp = false

/-- What a step comes to: markers are retired, a micro-op may be fetched, and then an element of
work may be handled. A firing that fails is the last thing that happens. -/
theorem step_spec (unit : UInt8) {work : Workspace} (notControl : work.kernel ≠ .control) :
    (step unit work).Ends
      (fun after => ∃ middle, (middle = cleared work ∨ Fetches unit (cleared work) middle) ∧
        (after = middle ∨ Fires unit middle after))
      (fun after fault => ∃ middle, Prepares unit work middle ∧ Fails unit middle after fault) := by
  have clears : (dropMarkers work).Ends (· = cleared work) (fun after fault => ∃ middle,
      Prepares unit work middle ∧ Fails unit middle after fault) := by
    obtain ⟨progressed, dropped⟩ := dropMarkers_eq work
    rw [dropped]
    exact rfl
  have fetches : ∀ state, state = cleared work → (fetch unit state).Ends
      (fun middle => middle = cleared work ∨ Fetches unit (cleared work) middle)
      (fun after fault => ∃ middle, Prepares unit work middle ∧ Fails unit middle after fault) := by
    rintro - rfl
    cases needs : (cleared work).kernel.needsMicroOp with
    | true =>
      apply (fetch_outcome unit needs).ends.mono
      · rintro middle (idle | fires)
        · exact .inl idle
        · exact .inr ⟨needs, fires⟩
      · intro after fault fails
        exact ⟨cleared work, .inl rfl, fails⟩
    | false =>
      rw [fetch_of_supplied unit needs]
      exact .inl rfl
  refine (clears.andThen fetches).andThen ?_
  intro middle fetched
  have notControlThen : middle.kernel ≠ .control := by
    rcases fetched with rfl | ⟨-, fires⟩
    · exact notControl
    · exact fires.notControl notControl
  cases needs : middle.kernel.needsMicroOp with
  | true =>
    rw [perform_of_needsMicroOp unit needs]
    exact ⟨middle, fetched, .inl rfl⟩
  | false =>
    apply (perform_outcome unit needs notControlThen).ends.mono
    · intro after fires
      exact ⟨middle, fetched, fires⟩
    · intro after fault fails
      exact ⟨middle, fetched.imp_right (⟨·, needs⟩), fails⟩

/-- Taking a micro-op gives nothing out and leaves the memory alone. -/
theorem react_of_needsMicroOp {kernel : Kernel} {memory : Memory} {words : List Word}
    {reaction : Reaction} (needs : kernel.needsMicroOp = true)
    (reacts : kernel.react unit memory words = .ok reaction) :
    reaction.memory = memory ∧ reaction.emitted = none ∧ reaction.collected = none := by
  cases kernel with
  | control | streamIn | streamOut | reorder => cases needs
  | loadStore current =>
    cases current with
    | some => cases needs
    | none =>
      rw [react] at reacts
      split at reacts
      · obtain rfl := Except.ok.inj reacts
        exact ⟨rfl, rfl, rfl⟩
      · cases reacts
  | arithmetic current =>
    cases current with
    | some => cases needs
    | none =>
      rw [react] at reacts
      split at reacts
      · obtain rfl := Except.ok.inj reacts
        exact ⟨rfl, rfl, rfl⟩
      · cases reacts

/-- The micro-ops come from one input. -/
theorem Awaits.eq_opcodes {kernel : Kernel} {ports : List UInt8} (awaits : kernel.Awaits ports)
    (needs : kernel.needsMicroOp = true) : ports = [Bank.opcodes] := by
  cases awaits with
  | memoryOp | arithmeticOp => rfl
  | collect | load | store | operands | streamIn | streamOut | reorder => cases needs

/-- A kernel changes at most one word of memory when it fires. -/
theorem react_memory {kernel : Kernel} {memory : Memory} {words : List Word} {reaction : Reaction}
    (reacts : kernel.react unit memory words = .ok reaction) :
    reaction.memory = memory ∨
      ∃ place value, reaction.memory = memory.setIfInBounds place value := by
  have allows := allows_of_react reacts
  cases kernel with
  | control | arithmetic | streamOut | reorder =>
    exact .inl (allows.keeps UnitType.noConfusion UnitType.noConfusion)
  | streamIn offset written =>
    rw [react] at reacts
    split at reacts
    · obtain rfl := Except.ok.inj reacts
      exact .inr ⟨_, _, rfl⟩
    · cases reacts
  | loadStore current =>
    cases current with
    | none => exact .inl (react_of_needsMicroOp rfl reacts).1
    | some current =>
      obtain ⟨op, remaining⟩ := current
      cases op with
      | load =>
        simp only [react] at reacts
        split at reacts
        · obtain rfl := Except.ok.inj reacts
          exact .inl rfl
        · cases reacts
      | store =>
        simp only [react] at reacts
        split at reacts
        · obtain rfl := Except.ok.inj reacts
          exact .inr ⟨_, _, rfl⟩
        · cases reacts

end Kernel

/-- What lies outside a unit's inputs and its kernel is the same in two workspaces. -/
structure Workspace.SameOutside (work after : Workspace) : Prop where
  valuesAt : after.buffers.valuesAt = work.buffers.valuesAt
  destinationsAt : after.buffers.destinationsAt = work.buffers.destinationsAt
  memory : after.memory = work.memory
  results : after.results = work.results

theorem Workspace.SameOutside.trans {work middle after : Workspace}
    (first : work.SameOutside middle) (second : middle.SameOutside after) :
    work.SameOutside after where
  valuesAt := second.valuesAt.trans first.valuesAt
  destinationsAt := second.destinationsAt.trans first.destinationsAt
  memory := second.memory.trans first.memory
  results := second.results.trans first.results

namespace Kernel

variable {unit : UInt8} {work middle after : Workspace} {fault : Fault}

theorem Fetches.sameOutside (fetches : Fetches unit work after) : work.SameOutside after := by
  obtain ⟨needs, fires⟩ := fetches
  cases fires with
  | intro awaits room supplied reacts yields values destinations =>
    obtain ⟨memory, emitted, collected⟩ := react_of_needsMicroOp needs reacts
    refine ⟨?_, destinations, memory, ?_⟩
    · rw [values, emitted, Option.toList_none, List.append_nil, Function.update_eq_self]
    · rw [collected]
      exact Array.append_empty

theorem Fails.sameOutside (fails : Fails unit work after fault) : work.SameOutside after := by
  cases fails with
  | intro awaits room supplied reacts yields outputs =>
    exact ⟨Bank.valuesAt_congr outputs, Bank.destinationsAt_congr outputs, rfl, rfl⟩

theorem sameOutside_of_fetched
    (fetched : middle = cleared work ∨ Fetches unit (cleared work) middle) :
    work.SameOutside middle := by
  have sameCleared : work.SameOutside (cleared work) := ⟨rfl, rfl, rfl, rfl⟩
  rcases fetched with rfl | fetches
  · exact sameCleared
  · exact sameCleared.trans fetches.sameOutside

/-- A step that ends in a fault leaves everything outside as it was. -/
theorem sameOutside_of_fault (notControl : work.kernel ≠ .control)
    (faults : (step unit work).report = .error fault) :
    work.SameOutside (step unit work).state := by
  have spec := step_spec unit notControl
  rw [Stepped.Ends, faults] at spec
  obtain ⟨middle, prepares, fails⟩ := spec
  exact (sameOutside_of_fetched (prepares.imp_right And.left)).trans fails.sameOutside

theorem Fires.memory (fires : Fires unit work after) :
    after.memory = work.memory ∨
      ∃ place value, after.memory = work.memory.setIfInBounds place value := by
  cases fires with
  | intro awaits room supplied reacts yields values destinations => exact react_memory reacts

/-- A step changes at most one word of memory. -/
theorem step_memory (unit : UInt8) (notControl : work.kernel ≠ .control) :
    (step unit work).state.memory = work.memory ∨
      ∃ place value, (step unit work).state.memory = work.memory.setIfInBounds place value := by
  cases reported : (step unit work).report with
  | error fault => exact .inl (sameOutside_of_fault notControl reported).memory
  | ok progressed =>
    have spec := step_spec unit notControl
    rw [Stepped.Ends, reported] at spec
    obtain ⟨middle, fetched, same | fires⟩ := spec
    · rw [same]
      exact .inl (sameOutside_of_fetched fetched).memory
    · rw [← (sameOutside_of_fetched fetched).memory]
      exact fires.memory

end Kernel
end MoveMachine
