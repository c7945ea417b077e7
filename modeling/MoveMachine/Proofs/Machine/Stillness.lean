import MoveMachine.Proofs.Machine.Round

/-!
# Rounds without progress

A step that makes no progress leaves everything as it was, and for a reason
(`Stepped.Rests`): there was nothing to do, or what had to be done could not be
done yet. A round without progress has therefore found the whole network still
(`Machine.round_rests`): no marker is in front of an input, no kernel can fire,
and unless the interconnect is full, no output has a packet.
-/

set_option autoImplicit false

namespace MoveMachine

namespace Stepped

variable {State Other : Type} {state : State} {reason further : Prop}

/-- Whether a step that makes no progress leaves a state as it was, for a reason. -/
def Rests (state : State) (reason : Prop) (stepped : Stepped State) : Prop :=
  stepped.report = .ok false → stepped.state = state ∧ reason

theorem Rests.of_progress (after : State) : Rests state reason (progress after) := nofun

theorem Rests.of_fault (after : State) (cause : Fault) : Rests state reason (fault after cause) :=
  nofun

theorem Rests.of_attempt (taken : State) (result : Except Fault State) :
    Rests state reason (attempt taken result) := by
  cases result <;> exact nofun

theorem Rests.of_attempt_andThen (taken : State) (result : Except Fault State)
    (next : State → Stepped State) : Rests state reason ((attempt taken result).andThen next) := by
  intro nothing
  cases result with
  | error cause => cases nothing
  | ok after =>
    cases second : (next after).report with
    | error cause => simp [Stepped.andThen, progress, second, Except.map] at nothing
    | ok progressed => simp [Stepped.andThen, progress, second, Except.map] at nothing

theorem Rests.andThen {first : Stepped State} {next : State → Stepped State}
    (rests : first.Rests state reason)
    (restsNext : reason → (next state).Rests state further) :
    (first.andThen next).Rests state (reason ∧ further) := by
  intro nothing
  obtain ⟨after, report⟩ := first
  cases report with
  | error cause => cases nothing
  | ok progressed =>
    cases second : (next after).report with
    | error cause => simp [Stepped.andThen, second, Except.map] at nothing
    | ok progressedNext =>
      simp only [Stepped.andThen, second, Except.map, Except.ok.injEq, Bool.or_eq_false_iff]
        at nothing
      obtain ⟨rfl, rfl⟩ := nothing
      obtain ⟨rfl, because⟩ := rests rfl
      obtain ⟨same, becauseNext⟩ := restsNext because second
      exact ⟨same, because, becauseNext⟩

/-- Steps of the items of a list, one after the other. -/
theorem Rests.cons {Item Common : Type} {item kept : Item} {later : List Item}
    {shared sharing : Common} {progressed : Bool} {rest : Stepped (List Item × Common)}
    (rests : Rests (item, shared) reason ⟨(kept, sharing), .ok progressed⟩)
    (restsLater : sharing = shared → rest.Rests (later, shared) further) :
    Rests (item :: later, shared) (reason ∧ further)
      ⟨(kept :: rest.state.1, rest.state.2), rest.report.map (progressed || ·)⟩ := by
  intro nothing
  cases second : rest.report with
  | error cause => simp [second, Except.map] at nothing
  | ok progressedLater =>
    simp only [second, Except.map, Except.ok.injEq, Bool.or_eq_false_iff] at nothing
    obtain ⟨rfl, rfl⟩ := nothing
    obtain ⟨same, because⟩ := rests rfl
    obtain ⟨rfl, rfl⟩ := Prod.mk.inj same
    obtain ⟨sameLater, becauseLater⟩ := restsLater rfl second
    exact ⟨by rw [sameLater], because, becauseLater⟩

theorem Rests.map {stepped : Stepped State} (embed : State → Other)
    (rests : stepped.Rests state reason) : (stepped.map embed).Rests (embed state) reason := by
  intro nothing
  obtain ⟨same, because⟩ := rests nothing
  exact ⟨congrArg embed same, because⟩

theorem Rests.mono {stepped : Stepped State} (implies : reason → further)
    (rests : stepped.Rests state reason) : stepped.Rests state further := by
  intro nothing
  obtain ⟨same, because⟩ := rests nothing
  exact ⟨same, implies because⟩

end Stepped

open Stepped

/-! ## Kernels -/

namespace Kernel

/-- Whether a kernel cannot fire. -/
def Blocked (work : Workspace) : Prop := ∀ ports, work.kernel.Awaits ports → ¬work.Ready ports

theorem Outcome.rests {unit : UInt8} {work : Workspace} {stepped : Stepped Workspace}
    (outcome : Outcome unit work stepped) : stepped.Rests work (Blocked work) := by
  cases outcome with
  | idle blocked => exact fun _ => ⟨rfl, blocked⟩
  | fired => exact .of_progress _
  | faulted => exact .of_fault _ _

theorem dropMarkers_rests (work : Workspace) :
    (dropMarkers work).Rests work (work.buffers.hasMarker = false) := by
  rw [dropMarkers]
  split
  · exact .of_progress _
  · rename_i none
    exact fun _ => ⟨rfl, by simpa using none⟩

theorem fetch_rests (unit : UInt8) (work : Workspace) :
    (fetch unit work).Rests work (work.kernel.needsMicroOp = true → Blocked work) := by
  cases needs : work.kernel.needsMicroOp with
  | true => exact (fetch_outcome unit needs).rests.mono fun blocked _ => blocked
  | false =>
    rw [fetch_of_supplied unit needs]
    exact fun _ => ⟨rfl, by simp⟩

theorem perform_rests (unit : UInt8) (work : Workspace) :
    (perform unit work).Rests work (work.kernel.needsMicroOp = false → Blocked work) := by
  by_cases control : work.kernel = .control
  · have collects : perform unit work = collect work := by
      simp only [perform, control]
    rw [collects, collect]
    split
    · exact .of_progress _
    · rename_i nothing
      refine fun _ => ⟨rfl, fun _ ports awaits ready => ?_⟩
      rw [control] at awaits
      cases awaits with
      | collect port =>
        obtain ⟨buffer, found, hasValue⟩ := (Option.any_eq_true _ _).mp (ready.2 port (by simp))
        exact nothing (List.any_eq_true.mpr ⟨buffer, List.mem_of_getElem? found, hasValue⟩)
  · cases needs : work.kernel.needsMicroOp with
    | true =>
      rw [perform_of_needsMicroOp unit needs]
      exact fun _ => ⟨rfl, by simp⟩
    | false => exact (perform_outcome unit needs control).rests.mono fun blocked _ => blocked

theorem step_rests (unit : UInt8) (work : Workspace) :
    (step unit work).Rests work (work.buffers.hasMarker = false ∧ Blocked work) := by
  refine (((dropMarkers_rests work).andThen fun _ => fetch_rests unit work).andThen
    fun _ => perform_rests unit work).mono ?_
  rintro ⟨⟨noMarker, hungry⟩, supplied⟩
  refine ⟨noMarker, ?_⟩
  cases needs : work.kernel.needsMicroOp with
  | true => exact hungry needs
  | false => exact supplied needs

end Kernel

/-! ## Outputs -/

/-- Whether an output has nothing to send. -/
def OutputBuffer.Exhausted (output : OutputBuffer) : Prop :=
  output.values = [] ∨ output.destinations = []

theorem handOver_rests (sender : Address) (output : OutputBuffer) (interconnect : Interconnect) :
    (handOver sender (min output.values.length output.destinations.length) output
      interconnect).Rests (output, interconnect)
        (interconnect.canSend = true → output.Exhausted) := by
  obtain ⟨depth, destinations, values⟩ := output
  cases values with
  | nil =>
    rw [List.length_nil, Nat.zero_min]
    exact fun _ => ⟨rfl, fun _ => .inl rfl⟩
  | cons value values =>
    cases destinations with
    | nil =>
      rw [List.length_nil, Nat.min_zero]
      exact fun _ => ⟨rfl, fun _ => .inr rfl⟩
    | cons destination destinations =>
      simp only [List.length_cons, Nat.add_min_add_right, handOver, OutputBuffer.pop?]
      split
      · exact .of_attempt_andThen _ _ _
      · rename_i full
        exact fun _ => ⟨rfl, fun accepts => absurd accepts full⟩

theorem handOverAll_rests (unit : UInt8) (interconnect : Interconnect) (index : Nat)
    (outputs : List OutputBuffer) :
    (handOverAll unit interconnect index outputs).Rests (outputs, interconnect)
      (interconnect.canSend = true → ∀ output ∈ outputs, output.Exhausted) := by
  induction outputs generalizing index with
  | nil => exact fun _ => ⟨rfl, by simp⟩
  | cons output later ih =>
    have first := handOver_rests ⟨unit, UInt8.ofNat index⟩ output interconnect
    rw [handOverAll]
    generalize handOver ⟨unit, UInt8.ofNat index⟩
      (min output.values.length output.destinations.length) output interconnect = stepped at first ⊢
    obtain ⟨⟨kept, sending⟩, report⟩ := stepped
    cases report with
    | error fault => exact .of_fault _ fault
    | ok progressed =>
      have rest (same : sending = interconnect) :
          (handOverAll unit sending (index + 1) later).Rests (later, interconnect)
            (interconnect.canSend = true → ∀ output ∈ later, output.Exhausted) := by
        subst same
        exact ih (index + 1)
      refine (Rests.cons first rest).mono fun both accepts => ?_
      exact List.forall_mem_cons.mpr ⟨both.1 accepts, both.2 accepts⟩

/-! ## Units -/

namespace ProcessingUnit

/-- Whether a unit has nothing to do until a value arrives. -/
structure Still (unit : ProcessingUnit) (shared : Shared) : Prop where
  markers : unit.buffers.hasMarker = false
  kernel : Kernel.Blocked ⟨unit.kernel, unit.buffers, shared.memory, shared.results⟩
  outputs : shared.interconnect.canSend = true → ∀ output ∈ unit.buffers.outputs, output.Exhausted

variable {unit : ProcessingUnit} {shared : Shared}

theorem stepManager_rests (side : Side) :
    (stepManager side (unit, shared)).Rests (unit, shared) True := by
  suffices rests : ((unit.manager side).step unit.buffers).Rests (unit.manager side, unit.buffers)
      True by
    have whole := rests.map (managed unit shared side)
    rwa [managed_self] at whole
  have outcome := Manager.step_outcome (unit.manager side) unit.buffers
  generalize (unit.manager side).step unit.buffers = stepped at outcome
  cases outcome with
  | rests | waits => exact fun _ => ⟨rfl, trivial⟩
  | fetches | drops | applies | fails => exact nofun

theorem stepKernel_rests :
    (stepKernel (unit, shared)).Rests (unit, shared) (unit.buffers.hasMarker = false ∧
      Kernel.Blocked ⟨unit.kernel, unit.buffers, shared.memory, shared.results⟩) :=
  (Kernel.step_rests unit.number ⟨unit.kernel, unit.buffers, shared.memory, shared.results⟩).map
    (working unit shared.interconnect)

theorem stepOutputs_rests :
    (stepOutputs (unit, shared)).Rests (unit, shared)
      (shared.interconnect.canSend = true →
        ∀ output ∈ unit.buffers.outputs, output.Exhausted) :=
  (handOverAll_rests unit.number shared.interconnect 0 unit.buffers.outputs).map
    fun state => ({ unit with buffers := { unit.buffers with outputs := state.1 } },
      { shared with interconnect := state.2 })

theorem step_rests (unit : ProcessingUnit) (shared : Shared) :
    (unit.step shared).Rests (unit, shared) (unit.Still shared) := by
  refine ((((stepManager_rests .input).andThen fun _ => stepManager_rests .output).andThen
    fun _ => stepKernel_rests).andThen fun _ => stepOutputs_rests).mono ?_
  rintro ⟨⟨-, noMarker, blocked⟩, exhausted⟩
  exact ⟨noMarker, blocked, exhausted⟩

end ProcessingUnit

/-! ## Machines -/

namespace Machine

variable {machine : Machine}

theorem stepUnits_rests (units : List ProcessingUnit) (shared : Shared) :
    (stepUnits units shared).Rests (units, shared) (∀ unit ∈ units, unit.Still shared) := by
  induction units with
  | nil => exact fun _ => ⟨rfl, by simp⟩
  | cons unit later ih =>
    have first := ProcessingUnit.step_rests unit shared
    rw [stepUnits]
    generalize unit.step shared = stepped at first ⊢
    obtain ⟨⟨kept, sharing⟩, report⟩ := stepped
    cases report with
    | error fault => exact .of_fault _ fault
    | ok progressed =>
      have rest (same : sharing = shared) : (stepUnits later sharing).Rests (later, shared)
          (∀ unit ∈ later, unit.Still shared) := by
        subst same
        exact ih
      exact (Rests.cons first rest).mono fun both => List.forall_mem_cons.mpr both

theorem work_rests :
    machine.work.Rests machine (∀ unit ∈ machine.units, unit.Still machine.shared) :=
  (stepUnits_rests machine.units machine.shared).map (worked machine [])

theorem dispatch_rests : machine.dispatch.Rests machine True := by
  rw [dispatch]
  split
  · exact fun _ => ⟨rfl, trivial⟩
  · split
    · exact fun _ => ⟨rfl, trivial⟩
    · split
      · exact .of_progress _
      · exact .of_progress _
      · rw [issue]
        split
        · exact .of_fault _ _
        · exact fun _ => ⟨rfl, trivial⟩
        · exact .of_attempt _ _

theorem deliver_rests : machine.deliver.Rests machine True := by
  intro nothing
  simp only [deliver, Interconnect.deliver] at nothing ⊢
  split at nothing
  · cases nothing
  · rename_i noFault
    simp only [Except.map, Except.ok.injEq, decide_eq_false_iff_not, Nat.not_lt, Nat.le_zero]
      at nothing
    obtain ⟨same, held⟩ := deliverAll_of_none _ _ _ nothing
    simp [same, held, nothing]

/-- A round without progress leaves the machine as it was, and every unit was still. -/
theorem round_rests :
    machine.round.Rests machine (∀ unit ∈ machine.units, unit.Still machine.shared) := by
  refine ((dispatch_rests.andThen fun _ => work_rests).andThen fun _ => deliver_rests).mono ?_
  rintro ⟨⟨-, still⟩, -⟩
  exact still

end Machine
end MoveMachine
