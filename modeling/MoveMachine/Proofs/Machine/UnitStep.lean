import MoveMachine.Proofs.Machine.ManagerStep
import MoveMachine.Proofs.Machine.KernelStep
import MoveMachine.Proofs.Machine.Moments

/-!
# Steps of a unit in the network

The packets that a unit hands over are sent one by one
(`ProcessingUnit.stepOutputs_explained`). With the steps of the managers and of
the kernel this explains a whole step of a unit (`ProcessingUnit.step_explained`):
it leads along a history of the network in which the unit has its seat, it keeps
the shape of the unit, and the only faults are those of the kernel.

Each part of the step is the work of one part of the machine, so what its events did
is what is read off the unit before and after it (`ProcessingUnit.does_of_stepManager`,
`ProcessingUnit.does_of_stepKernel`, `ProcessingUnit.does_of_stepOutputs`), and the
history of a whole step did what its chronicle says.
-/

set_option autoImplicit false

namespace MoveMachine

/-- If what a later step does is read off the states before and after it, and nothing is read where
they are the same, it may be left out after a fault. -/
theorem Network.Explained.andThenRead {program : List Instruction} {depth : Nat} {before : Network}
    {State : Type} {embed : State → Network} {kept : State → Prop} {first : Stepped State}
    {next : State → Stepped State} {done : Chronicle} {read : State → State → Chronicle}
    (explained : Explained program depth before (History.Does done) embed kept first)
    (nothing : ∀ state, read state state = .nothing)
    (continues : ∀ events, Evolves program depth before events (embed first.state) →
      kept first.state → Explained program depth (embed first.state)
        (History.Does (read first.state (next first.state).state)) embed kept (next first.state)) :
    Explained program depth before
      (History.Does (done ++ read first.state (first.andThen next).state)) embed kept
      (first.andThen next) := by
  refine explained.andThen continues (fun _ sound => ?_) fun fault fails => ?_
  · rw [Stepped.andThen_of_ok sound]
    exact fun _ _ => History.Does.append
  · rw [Stepped.andThen_of_error fails, Stepped.fault, nothing, Chronicle.append_nothing]
    exact fun _ => id

namespace ProcessingUnit

open Network

variable {program : List Instruction} {depth : Depth} {base : Network} {unit : ProcessingUnit}
  {shared : Shared}

/-- A unit in the middle of handing packets over, from the output behind those that are done. -/
def handing (unit : ProcessingUnit) (shared : Shared) (done : List OutputBuffer)
    (state : List OutputBuffer × Interconnect) : ProcessingUnit × Shared :=
  ({ unit with buffers := { unit.buffers with outputs := done ++ state.1 } },
    { shared with interconnect := state.2 })

/-- A fitted unit has few outputs. -/
theorem Fitted.outputs_length_le (fitted : unit.Fitted depth) :
    unit.buffers.outputs.length ≤ 256 := by
  rw [fitted.outputs]
  cases unit.type <;> decide

/-- A packet that an output hands over is sent in the network. -/
theorem send_step {done later : List OutputBuffer} {size : Depth} {destination : Address}
    {destinations : List Address} {value : Word} {values : List Word}
    {interconnect sending : Interconnect}
    (few : (done ++ ⟨size, destination :: destinations, value :: values⟩ :: later).length ≤ 256)
    (accepts : interconnect.canSend = true)
    (sends : interconnect.send
      ⟨value, ⟨unit.number, UInt8.ofNat done.length⟩, destination⟩ = .ok sending) :
    Step program depth.value
      (seated base (handing unit shared done
        (⟨size, destination :: destinations, value :: values⟩ :: later, interconnect)))
      (.send ⟨value, ⟨unit.number, UInt8.ofNat done.length⟩, destination⟩)
      (seated base (handing unit shared done
        (⟨size, destinations, values⟩ :: later, sending))) := by
  let bank : Bank := { unit.buffers with
    outputs := done ++ ⟨size, destination :: destinations, value :: values⟩ :: later }
  have place := toNat_place few
  have found : bank.output? (UInt8.ofNat done.length) =
      some ⟨size, destination :: destinations, value :: values⟩ := by
    simp [bank, Bank.output?, place]
  have after : { unit.buffers with outputs := done ++ ⟨size, destinations, values⟩ :: later } =
      bank.setOutput (UInt8.ofNat done.length) ⟨size, destinations, values⟩ := by
    simp [bank, Bank.setOutput, place]
  have becomes : seated base (handing unit shared done
      (⟨size, destinations, values⟩ :: later, sending)) = _ :=
    (congrArg (fun outputs => base.seat { unit with buffers := outputs } _) after).trans
      (seat_outputs { unit with buffers := bank } { shared with interconnect }
        (Bank.valuesAt_setOutput found ⟨size, destinations, values⟩)
        (Bank.destinationsAt_setOutput found ⟨size, destinations, values⟩) rfl)
  rw [becomes]
  refine .send ?_ ?_ accepts sends
  · exact (seat_valuesAt _).trans (Bank.valuesAt_of_output? found)
  · exact (seat_destinationsAt _).trans (Bank.destinationsAt_of_output? found)

/-- While the interconnect has room, sending does not fail. -/
theorem send_of_canSend {interconnect : Interconnect} (packet : Packet)
    (accepts : interconnect.canSend = true) :
    ∃ sending, interconnect.send packet = .ok sending := by
  cases isNull : packet.destination.isNull <;>
    simp [Interconnect.send, Address.route, isNull, accepts]

theorem resembles_handing_iff {done : List OutputBuffer}
    {state : List OutputBuffer × Interconnect} :
    unit.Resembles (handing unit shared done state) ↔
      (done ++ state.1).map OutputBuffer.clear =
        unit.buffers.outputs.map OutputBuffer.clear := by
  simp [Resembles, handing, reset, Bank.clear]

/-- The handing over of one output is explained by sending its packets. -/
theorem handOver_explained (bound : Nat) (output : OutputBuffer) (interconnect : Interconnect)
    {done later : List OutputBuffer} (fitted : unit.Fitted depth)
    (keeps : unit.Resembles (handing unit shared done (output :: later, interconnect))) :
    Explained program depth.value
      (seated base (handing unit shared done (output :: later, interconnect)))
      (History.Of (.handing unit.number))
      (seated base ∘ handing unit shared done ∘ Prod.map (· :: later) id)
      (unit.Resembles ∘ handing unit shared done ∘ Prod.map (· :: later) id)
      (handOver ⟨unit.number, UInt8.ofNat done.length⟩ bound output interconnect) := by
  induction bound generalizing output interconnect with
  | zero => exact Explained.idle keeps false
  | succ bound ih =>
    obtain ⟨size, destinations, values⟩ := output
    rw [handOver]
    split
    · rename_i accepts
      cases destinations with
      | nil => exact Explained.idle keeps false
      | cons destination destinations =>
        cases values with
        | nil => exact Explained.idle keeps false
        | cons value values =>
          obtain ⟨sending, sends⟩ := send_of_canSend
            ⟨value, ⟨unit.number, UInt8.ofNat done.length⟩, destination⟩ accepts
          simp only [OutputBuffer.pop?, sends]
          have few := (fitted.of_reset_eq keeps).outputs_length_le
          have after : unit.Resembles
              (handing unit shared done (⟨size, destinations, values⟩ :: later, sending)) := by
            rw [resembles_handing_iff] at keeps ⊢
            simpa [OutputBuffer.clear] using keeps
          refine Explained.andThenOf ?_ fun keeps => ih _ _ keeps
          exact Explained.event _ after (send_step few accepts sends) rfl rfl
    · exact Explained.idle keeps false

/-- The handing over of all outputs is explained by sending their packets. -/
theorem handOverAll_explained (outputs : List OutputBuffer) (interconnect : Interconnect)
    (done : List OutputBuffer) (fitted : unit.Fitted depth)
    (keeps : unit.Resembles (handing unit shared done (outputs, interconnect))) :
    Explained program depth.value (seated base (handing unit shared done (outputs, interconnect)))
      (History.Of (.handing unit.number)) (seated base ∘ handing unit shared done)
      (unit.Resembles ∘ handing unit shared done)
      (handOverAll unit.number interconnect done.length outputs) := by
  induction outputs generalizing done interconnect with
  | nil => exact Explained.idle keeps false
  | cons output later ih =>
    have first := @handOver_explained program depth base unit shared
      (min output.values.length output.destinations.length) output interconnect done later fitted
      keeps
    rw [handOverAll]
    generalize handOver ⟨unit.number, UInt8.ofNat done.length⟩
      (min output.values.length output.destinations.length) output interconnect = stepped at first ⊢
    obtain ⟨⟨kept, sending⟩, report⟩ := stepped
    cases report with
    | error fault => exact first
    | ok progressed =>
      have moved : handing unit shared done ∘ Prod.map (kept :: ·) id =
          handing unit shared (done ++ [kept]) := by
        funext state
        simp [handing]
      have length : done.length + 1 = (done ++ [kept]).length := by simp
      refine Explained.cons first (fun _ _ keeps => ?_) fun _ _ => History.Of.append
      have here : handing unit shared done (kept :: later, sending) =
          handing unit shared (done ++ [kept]) (later, sending) := congrFun moved (later, sending)
      rw [Function.comp_apply, here] at keeps
      rw [Function.comp_assoc, Function.comp_assoc, moved, length, Function.comp_apply, here]
      exact ih sending _ keeps

/-- The handing over of packets is explained by sending them. -/
theorem stepOutputs_explained (fitted : unit.Fitted depth) :
    Explained program depth.value (base.seat unit shared) (History.Of (.handing unit.number))
      (seated base) unit.Resembles (stepOutputs (unit, shared)) := by
  suffices explained : Explained program depth.value (base.seat unit shared)
      (History.Of (.handing unit.number))
      (seated base ∘ handing unit shared []) (unit.Resembles ∘ handing unit shared [])
      (handOverAll unit.number shared.interconnect 0 unit.buffers.outputs) from explained.map
  exact handOverAll_explained unit.buffers.outputs shared.interconnect [] fitted rfl

theorem Resembles.eq {state : ProcessingUnit × Shared} (keeps : unit.Resembles state) :
    state.1.Resembles = unit.Resembles := by
  funext other
  rw [Resembles, Resembles, keeps]

/-! ## What a unit does in a step -/

/-- The events of a manager did what is read off its step. -/
theorem does_of_stepManager {side : Side} {events : History}
    (reachable : (base.seat unit shared).Reachable program depth.value)
    (evolves : Evolves program depth.value (base.seat unit shared) events
      (seated base (stepManager side (unit, shared)).state))
    (of : events.Of (.manager (unit.number, side))) :
    events.Does (managerChronicle side (unit, shared)) := by
  refine (reachable.does_of_manager evolves of).trans ?_
  have number : (stepManager side (unit, shared)).state.1.number = unit.number := by
    cases side <;> rfl
  ext1
  all_goals funext place
  · obtain ⟨here, other⟩ := place
    simp only [seated, seat_held, number, Chronicle.gone_ite, managerChronicle, Prod.mk.injEq]
    by_cases own : here = unit.number
    · cases side <;> cases other <;> simp [own, Manager.held, stepManager, Stepped.map, manager,
        setManager]
    · simp [own]
  · simp only [seated, seat, number, Chronicle.added_ite]
    rfl
  · simp only [seated, seat, number, Chronicle.added_ite]
    rfl
  all_goals rfl

/-- The events of a kernel did what is read off its step. -/
theorem does_of_stepKernel {events : History}
    (reachable : (base.seat unit shared).Reachable program depth.value)
    (evolves : Evolves program depth.value (base.seat unit shared) events
      (seated base (stepKernel (unit, shared)).state))
    (of : events.Of (.kernel unit.number)) : events.Does (kernelChronicle (unit, shared)) := by
  refine (reachable.does_of_kernel evolves of).trans ?_
  ext1
  all_goals funext place
  case retired => exact Chronicle.gone_ite _ _ _
  case pushed => exact Chronicle.added_ite _ _ _
  all_goals rfl

/-- The events that hand packets over did what is read off the outputs. -/
theorem does_of_stepOutputs {events : History}
    (reachable : (base.seat unit shared).Reachable program depth.value)
    (evolves : Evolves program depth.value (base.seat unit shared) events
      (seated base (stepOutputs (unit, shared)).state))
    (of : events.Of (.handing unit.number)) :
    events.Does (handingChronicle (unit, shared) (stepOutputs (unit, shared)).state) := by
  refine (reachable.does_of_handing evolves of).trans ?_
  have number : (stepOutputs (unit, shared)).state.1.number = unit.number := rfl
  ext1
  all_goals funext place
  case departed =>
    simp only [seated, seat, number, Chronicle.gone_ite, handingChronicle]
    split <;> rfl
  all_goals rfl

/-- A step of a manager, as a stage of the step of its unit. -/
theorem stepManager_does (side : Side) (moment : ProcessingUnit × Shared)
    (fitted : moment.1.Fitted depth) (serves : moment.1.Serves program)
    (reachable : (seated base moment).Reachable program depth.value) :
    (∃ progressed, (stepManager side moment).report = .ok progressed) ∧
      moment.1.Resembles (stepManager side moment).state ∧
      Leads program depth.value (seated base moment)
        (History.Does (managerChronicle side moment))
        (seated base (stepManager side moment).state) := by
  obtain ⟨sound, keeps, events, evolves, of, undisturbed⟩ :=
    stepManager_leads side fitted serves reachable
  exact ⟨sound, keeps, events, evolves, does_of_stepManager reachable evolves of, undisturbed⟩

theorem stepKernel_does (moment : ProcessingUnit × Shared) (fitted : unit.Fitted depth)
    (keeps : unit.Resembles moment)
    (reachable : (seated base moment).Reachable program depth.value) :
    Explained program depth.value (seated base moment) (History.Does (kernelChronicle moment))
      (seated base) unit.Resembles (stepKernel moment) := by
  rw [← keeps.eq]
  exact (stepKernel_explained (fitted.of_reset_eq keeps)).mono (fun _ _ => rfl) (fun _ => id)
    fun _ _ => does_of_stepKernel reachable

theorem stepOutputs_does (moment : ProcessingUnit × Shared) (fitted : unit.Fitted depth)
    (keeps : unit.Resembles moment)
    (reachable : (seated base moment).Reachable program depth.value) :
    Explained program depth.value (seated base moment)
      (History.Does (handingChronicle moment (stepOutputs moment).state)) (seated base)
      unit.Resembles (stepOutputs moment) := by
  rw [← keeps.eq]
  exact (stepOutputs_explained (fitted.of_reset_eq keeps)).mono (fun _ _ => rfl) (fun _ => id)
    fun _ _ => does_of_stepOutputs reachable

/-- The managers of a unit do not fail, and they lead to where the kernel begins its step. -/
theorem stepManagers_does (moment : ProcessingUnit × Shared) (fitted : moment.1.Fitted depth)
    (serves : moment.1.Serves program)
    (reachable : (seated base moment).Reachable program depth.value) :
    (∃ progressed, (stepManager .input moment).andThen (stepManager .output) =
        ⟨afterManagers moment, .ok progressed⟩) ∧
      moment.1.Resembles (afterManagers moment) ∧
      Leads program depth.value (seated base moment)
        (History.Does (managerChronicle .input moment ++
          managerChronicle .output (afterInputs moment)))
        (seated base (afterManagers moment)) := by
  obtain ⟨⟨progressed, sound⟩, keeps, leads⟩ :=
    stepManager_does .input moment fitted serves reachable
  obtain ⟨⟨progressedLater, soundLater⟩, keepsLater, leadsLater⟩ :=
    stepManager_does .output (afterInputs moment) (fitted.of_reset_eq keeps)
      (serves.of_reset_eq keeps) (leads.reachable reachable)
  refine ⟨⟨progressed || progressedLater, ?_⟩, keepsLater.trans keeps,
    leads.trans leadsLater fun _ _ => History.Does.append⟩
  have report : (stepManager .output (stepManager .input moment).state).report =
      .ok progressedLater := soundLater
  rw [Stepped.andThen_of_ok sound, report]
  rfl

/-- A step of a unit is explained by events that did what is read off its parts. -/
theorem step_explained (fitted : unit.Fitted depth) (serves : unit.Serves program)
    (reachable : (base.seat unit shared).Reachable program depth.value) :
    Explained program depth.value (base.seat unit shared)
      (History.Does (chronicle (unit, shared))) (seated base) unit.Resembles
      (unit.step shared) := by
  obtain ⟨⟨progressed, managers⟩, keeps, leads⟩ :=
    stepManagers_does (unit, shared) fitted serves reachable
  have kernel : Explained program depth.value (base.seat unit shared)
      (History.Does (managerChronicle .input (unit, shared) ++
        managerChronicle .output (afterInputs (unit, shared)) ++
          kernelChronicle (afterManagers (unit, shared))))
      (seated base) unit.Resembles
      (Stepped.andThen ⟨afterManagers (unit, shared), .ok progressed⟩ stepKernel) := by
    refine (leads.explained keeps progressed).andThen (fun _ _ _ => ?_)
      (fun _ _ _ _ => History.Does.append) fun _ fails => by cases fails
    exact stepKernel_does _ fitted keeps (leads.reachable reachable)
  rw [chronicle, step, managers]
  exact kernel.andThenRead handingChronicle_self fun _ evolves keeps =>
    stepOutputs_does _ fitted keeps (reachable.trans evolves)

end ProcessingUnit
end MoveMachine
