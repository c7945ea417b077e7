import MoveMachine.Proofs.ManagerOrder
import MoveMachine.Proofs.Machine.Building
import MoveMachine.Proofs.Machine.Stillness
import MoveMachine.Proofs.Kernel.Steps

/-!
# Values leave an output with their destinations

The destinations of an output come from a manager and its values from a kernel, and
neither knows of the other. They leave together, the oldest value with the oldest
destination, when the interconnect has room, and the interconnect is shared with all other
units. So at any time the packets handed over are the first values with the first
destinations, pair by pair, and what has not been handed over is still in the output
(`ProcessingUnit.pairs_in_order`).

In a step of a unit, the parts before the last one only add to the output
(`ProcessingUnit.Adds`): the manager of the outputs adds destinations, and the kernel adds
values. The last part takes packets out until the interconnect is full or the output has
no more (`handOver_hands`). The account that is kept through all steps says that the values
of the packets handed over and those in the output are all values, in order, and the same
of the destinations (`ProcessingUnit.Paired`).
-/

set_option autoImplicit false

namespace MoveMachine

open Stepped

/-- A step that ends well ends in its state. -/
theorem Stepped.Ends.reached {State : Type} {stepped : Stepped State} {sound : State → Prop}
    {faulty : State → Fault → Prop} (ends : stepped.Ends sound faulty) :
    stepped.Ends (fun after => after = stepped.state ∧ sound after) faulty := by
  obtain ⟨state, report⟩ := stepped
  cases report with
  | error fault => exact ends
  | ok progressed => exact ⟨rfl, ends⟩

/-! ## Kernels -/

/-- What a kernel does to its output: it adds values. -/
structure Workspace.Gives (work after : Workspace) (values : List Word) : Prop where
  kernel : after.kernel.reset = work.kernel.reset
  shape : after.buffers.clear = work.buffers.clear
  destinations : after.buffers.destinationsAt Bank.result = work.buffers.destinationsAt Bank.result
  values : after.buffers.valuesAt Bank.result = work.buffers.valuesAt Bank.result ++ values

theorem Workspace.Gives.trans {work middle after : Workspace} {first second : List Word}
    (before : work.Gives middle first) (later : middle.Gives after second) :
    work.Gives after (first ++ second) where
  kernel := later.kernel.trans before.kernel
  shape := later.shape.trans before.shape
  destinations := later.destinations.trans before.destinations
  values := by rw [later.values, before.values, List.append_assoc]

/-- A workspace whose kernel and outputs are the same. -/
theorem Workspace.Gives.nothing {work after : Workspace} (kernel : after.kernel = work.kernel)
    (shape : after.buffers.clear = work.buffers.clear)
    (outputs : after.buffers.outputs = work.buffers.outputs) : work.Gives after [] where
  kernel := by rw [kernel]
  shape := shape
  destinations := by rw [Bank.destinationsAt_congr outputs]
  values := by rw [Bank.valuesAt_congr outputs, List.append_nil]

namespace Kernel

variable {unit : UInt8} {work : Workspace} {stepped : Stepped Workspace}

/-- A part of a kernel's step only adds values to the output, and its faults are those of
kernels. -/
def OnlyGives (work : Workspace) (stepped : Stepped Workspace) : Prop :=
  stepped.Ends (fun after => ∃ values, work.Gives after values)
    fun _ fault => fault.isKernelFault = true

theorem OnlyGives.idle : OnlyGives work (.idle work) := ⟨[], .nothing rfl rfl rfl⟩

theorem OnlyGives.andThen {next : Workspace → Stepped Workspace} (gives : OnlyGives work stepped)
    (givesNext : ∀ middle, OnlyGives middle (next middle)) :
    OnlyGives work (stepped.andThen next) := by
  refine Ends.andThen gives fun middle before => ?_
  obtain ⟨values, given⟩ := before
  refine (givesNext middle).mono ?_ fun _ _ => id
  rintro after ⟨more, givenMore⟩
  exact ⟨values ++ more, given.trans givenMore⟩

theorem Outcome.onlyGives (outcome : Outcome unit work stepped) : OnlyGives work stepped := by
  cases outcome with
  | idle blocked => exact .idle
  | @fired taken words reaction retired after awaits room holds retires reacts emits =>
    have destinations : after.destinationsAt = work.buffers.destinationsAt :=
      emits.destinationsAt.trans (Bank.destinationsAt_congr retires.outputs)
    have values : after.valuesAt Bank.result =
        work.buffers.valuesAt Bank.result ++ reaction.emitted.toList := by
      rw [emits.valuesAt, Function.update_self, Bank.valuesAt_congr retires.outputs]
    exact ⟨reaction.emitted.toList, (allows_of_react reacts).shape,
      emits.clear.trans retires.clear, congrFun destinations Bank.result, values⟩
  | faulted taken words awaits room holds retires reacts => exact isKernelFault_of_react reacts

theorem dropMarkers_onlyGives (work : Workspace) : OnlyGives work (dropMarkers work) := by
  obtain ⟨progressed, dropped⟩ := dropMarkers_eq work
  have shape : work.buffers.dropMarkers.clear = work.buffers.clear := by
    simp only [Bank.clear, Bank.dropMarkers, List.map_map]
    rfl
  rw [dropped]
  exact ⟨[], .nothing rfl shape rfl⟩

theorem fetch_onlyGives (unit : UInt8) (work : Workspace) : OnlyGives work (fetch unit work) := by
  cases needs : work.kernel.needsMicroOp with
  | true => exact (fetch_outcome unit needs).onlyGives
  | false =>
    rw [fetch_of_supplied unit needs]
    exact .idle

theorem collect_onlyGives (work : Workspace) : OnlyGives work (collect work) := by
  rw [collect]
  split
  · have inputs : ((work.buffers.inputs.map InputBuffer.popAll).map (·.2)).map InputBuffer.clear =
        work.buffers.inputs.map InputBuffer.clear := by
      simp only [List.map_map]
      rfl
    have shape := congrArg (Bank.mk work.buffers.unit · (work.buffers.outputs.map .clear)) inputs
    exact ⟨[], .nothing rfl shape rfl⟩
  · exact .idle

theorem perform_onlyGives (unit : UInt8) (work : Workspace) :
    OnlyGives work (perform unit work) := by
  by_cases control : work.kernel = .control
  · have collects : perform unit work = collect work := by
      simp only [perform, control]
    rw [collects]
    exact collect_onlyGives work
  · cases needs : work.kernel.needsMicroOp with
    | true =>
      rw [perform_of_needsMicroOp unit needs]
      exact .idle
    | false => exact (perform_outcome unit needs control).onlyGives

theorem step_onlyGives (unit : UInt8) (work : Workspace) : OnlyGives work (step unit work) :=
  ((dropMarkers_onlyGives work).andThen (fetch_onlyGives unit)).andThen (perform_onlyGives unit)

end Kernel

/-! ## The parts of a step that add to the output -/

namespace ProcessingUnit

variable {unit : ProcessingUnit} {shared : Shared}

/-- Whether a fault has nothing to do with the interconnect. -/
def Local (fault : Fault) : Prop := ∀ limit, fault ≠ .overflow .inFlight limit

theorem local_of_isKernelFault {fault : Fault} (isKernelFault : fault.isKernelFault = true) :
    Local fault := by
  rintro limit rfl
  cases isKernelFault

/-- A part of a step adds destinations and values to the output of a unit, and leaves the
interconnect alone. -/
structure Adds (state after : ProcessingUnit × Shared) (tags : List Address)
    (values : List Word) : Prop where
  resembles : state.1.Resembles after
  interconnect : after.2.interconnect = state.2.interconnect
  destinations : after.1.buffers.destinationsAt Bank.result =
    state.1.buffers.destinationsAt Bank.result ++ tags
  values : after.1.buffers.valuesAt Bank.result =
    state.1.buffers.valuesAt Bank.result ++ values

/-- A manager that leaves the buffers alone. -/
theorem adds_of_manager (side : Side) {manager : Manager}
    (same : manager.reset = (unit.manager side).reset) :
    Adds (unit, shared) (managed unit shared side (manager, unit.buffers)) [] [] where
  resembles := resembles_managed same rfl
  interconnect := rfl
  destinations := (List.append_nil _).symm
  values := (List.append_nil _).symm

theorem stepInputs_adds (side : unit.inputManager.side = .input) :
    (stepManager .input (unit, shared)).Ends (fun after => Adds (unit, shared) after [] [])
      (fun _ => Local) := by
  have outcome := Manager.step_outcome (unit.manager .input) unit.buffers
  have steps : stepManager .input (unit, shared) =
      ((unit.manager .input).step unit.buffers).map (managed unit shared .input) := rfl
  rw [steps]
  generalize (unit.manager .input).step unit.buffers = stepped at outcome
  cases outcome with
  | rests | fetches | drops | waits => exact adds_of_manager .input rfl
  | @applies instruction effect after holds means room applied =>
    have meansInput : Effect.of? .input unit.inputManager.unit instruction = some effect := by
      rw [← side]
      exact means
    obtain ⟨input, -, -, effects⟩ := Effect.of?_input meansInput
    rw [(effects unit.buffers).1] at applied
    obtain ⟨buffer, found, rfl⟩ := Bank.openSlot_spec applied
    exact ⟨resembles_managed rfl (Bank.clear_setInput found rfl), rfl,
      (List.append_nil _).symm, (List.append_nil _).symm⟩
  | fails holds means room applied =>
    obtain ⟨-, rfl⟩ := Bank.of_apply_error room applied
    exact fun limit => Fault.noConfusion

theorem stepDestinations_adds (side : unit.outputManager.side = .output) :
    (stepManager .output (unit, shared)).Ends
      (fun after => ∃ tags, Adds (unit, shared) after tags []) (fun _ => Local) := by
  have outcome := Manager.step_outcome (unit.manager .output) unit.buffers
  have steps : stepManager .output (unit, shared) =
      ((unit.manager .output).step unit.buffers).map (managed unit shared .output) := rfl
  rw [steps]
  generalize (unit.manager .output).step unit.buffers = stepped at outcome
  cases outcome with
  | rests | fetches | drops | waits => exact ⟨[], adds_of_manager .output rfl⟩
  | @applies instruction effect after holds means room applied =>
    have meansOutput : Effect.of? .output unit.outputManager.unit instruction = some effect := by
      rw [← side]
      exact means
    obtain ⟨output, -, -, effects⟩ := Effect.of?_output meansOutput
    rw [(effects unit.buffers).1] at applied
    obtain ⟨buffer, directed, found, isDirected, rfl⟩ := Bank.alterOutput_spec applied
    rw [OutputBuffer.pushDestination] at isDirected
    split at isDirected
    · cases isDirected
    · obtain rfl := Except.ok.inj isDirected
      refine ⟨if Bank.result = output.buffer then [instruction.destination] else [],
        resembles_managed rfl (Bank.clear_setOutput found rfl), rfl, ?_, ?_⟩
      · have destinations := Bank.destinationsAt_setOutput found
          { buffer with destinations := buffer.destinations ++ [instruction.destination] }
        refine (congrFun destinations Bank.result).trans ?_
        rw [Function.update_apply]
        split
        · rename_i here
          rw [here, Bank.destinationsAt_of_output? found]
        · exact (List.append_nil _).symm
      · have values := Bank.valuesAt_setOutput found
          { buffer with destinations := buffer.destinations ++ [instruction.destination] }
        refine (congrFun values Bank.result).trans ?_
        rw [← Bank.valuesAt_of_output? found, Function.update_eq_self]
        exact (List.append_nil _).symm
  | fails holds means room applied =>
    obtain ⟨-, rfl⟩ := Bank.of_apply_error room applied
    exact fun limit => Fault.noConfusion

theorem stepKernel_adds : (stepKernel (unit, shared)).Ends
    (fun after => ∃ values, Adds (unit, shared) after [] values) (fun _ => Local) := by
  have gives := Kernel.step_onlyGives unit.number
    ⟨unit.kernel, unit.buffers, shared.memory, shared.results⟩
  have steps : stepKernel (unit, shared) =
      (Kernel.step unit.number ⟨unit.kernel, unit.buffers, shared.memory, shared.results⟩).map
        (working unit shared.interconnect) := rfl
  rw [steps]
  generalize Kernel.step unit.number ⟨unit.kernel, unit.buffers, shared.memory, shared.results⟩ =
    stepped at gives
  obtain ⟨after, report⟩ := stepped
  cases report with
  | error fault => exact local_of_isKernelFault gives
  | ok progressed =>
    obtain ⟨values, given⟩ := gives
    exact ⟨values, resembles_working_iff.mpr ⟨given.shape, given.kernel⟩, rfl,
      given.destinations.trans (List.append_nil _).symm, given.values⟩

end ProcessingUnit

theorem ProcessingUnit.Adds.trans {state middle after : ProcessingUnit × Shared}
    {tags more : List Address} {values further : List Word}
    (before : ProcessingUnit.Adds state middle tags values)
    (later : ProcessingUnit.Adds middle after more further) :
    ProcessingUnit.Adds state after (tags ++ more) (values ++ further) where
  resembles := later.resembles.trans before.resembles
  interconnect := later.interconnect.trans before.interconnect
  destinations := by rw [later.destinations, before.destinations, List.append_assoc]
  values := by rw [later.values, before.values, List.append_assoc]

/-! ## Handing packets over -/

/-- The packets that an output hands over, in the order in which they are sent. -/
def handedOver (sender : Address) : (bound : Nat) → OutputBuffer → Interconnect → List Packet
  | 0, _, _ => []
  | bound + 1, output, interconnect =>
    if interconnect.canSend then
      match output.pop? sender with
      | none => []
      | some (packet, popped) =>
        match interconnect.send packet with
        | .error _ => []
        | .ok sending => packet :: handedOver sender bound popped sending
    else []

/-- Packets leave an output and are sent one after the other. -/
structure Hands (sender : Address) (output : OutputBuffer) (interconnect : Interconnect)
    (packets : List Packet) (after : OutputBuffer × Interconnect) : Prop where
  values : output.values = packets.map (·.value) ++ after.1.values
  destinations : output.destinations = packets.map (·.destination) ++ after.1.destinations
  senders : ∀ packet ∈ packets, packet.sender = sender
  sends : packets.foldlM Interconnect.send interconnect = .ok after.2
  depth : after.1.depth = output.depth

theorem Hands.nothing (sender : Address) (output : OutputBuffer) (interconnect : Interconnect) :
    Hands sender output interconnect [] (output, interconnect) :=
  ⟨rfl, rfl, nofun, rfl, rfl⟩

/-- Handing over takes packets out and sends them, and it ends when the interconnect is full or the
output has no more. It never fails. -/
theorem handOver_hands (sender : Address) (bound : Nat) (output : OutputBuffer)
    (interconnect : Interconnect)
    (enough : min output.values.length output.destinations.length ≤ bound) :
    ∃ after progressed, handOver sender bound output interconnect = ⟨after, .ok progressed⟩ ∧
      Hands sender output interconnect (handedOver sender bound output interconnect) after ∧
      (after.2.canSend = true → after.1.Exhausted) := by
  induction bound generalizing output interconnect with
  | zero =>
    refine ⟨_, false, rfl, .nothing .., fun _ => ?_⟩
    rcases Nat.min_eq_zero_iff.mp (Nat.le_zero.mp enough) with noValue | noDestination
    · exact .inl (List.length_eq_zero_iff.mp noValue)
    · exact .inr (List.length_eq_zero_iff.mp noDestination)
  | succ bound ih =>
    rw [handOver, handedOver]
    split
    · rename_i accepts
      obtain ⟨depth, destinations, values⟩ := output
      cases destinations with
      | nil => exact ⟨_, false, rfl, .nothing .., fun _ => .inr rfl⟩
      | cons destination destinations =>
        cases values with
        | nil => exact ⟨_, false, rfl, .nothing .., fun _ => .inl rfl⟩
        | cons value values =>
          obtain ⟨sending, sends⟩ :=
            ProcessingUnit.send_of_canSend ⟨value, sender, destination⟩ accepts
          obtain ⟨after, progressed, hands, handed, exhausts⟩ := ih
            ⟨depth, destinations, values⟩ sending (by simpa using enough)
          simp only [OutputBuffer.pop?, sends, Except.map, attempt_ok, Stepped.andThen, progress,
            hands, Bool.true_or]
          refine ⟨after, true, rfl, ?_, exhausts⟩
          refine ⟨?_, ?_, ?_, ?_, handed.depth⟩
          · exact congrArg (value :: ·) handed.values
          · exact congrArg (destination :: ·) handed.destinations
          · exact List.forall_mem_cons.mpr ⟨rfl, handed.senders⟩
          · rw [List.foldlM_cons, sends]
            exact handed.sends
    · rename_i full
      exact ⟨_, false, rfl, .nothing .., fun accepts => absurd accepts full⟩

namespace ProcessingUnit

variable {unit : ProcessingUnit} {shared : Shared} {depth : Depth} {description : UnitDescription}

/-! ## What a step of a unit does to its output -/

/-- The destinations that the manager of the outputs adds in a step. -/
def directed (moment : ProcessingUnit × Shared) : List Address :=
  ((afterManagers moment).1.buffers.destinationsAt Bank.result).drop
    ((afterInputs moment).1.buffers.destinationsAt Bank.result).length

/-- The values that the kernel adds in a step. -/
def produced (moment : ProcessingUnit × Shared) : List Word :=
  ((afterKernel moment).1.buffers.valuesAt Bank.result).drop
    ((afterManagers moment).1.buffers.valuesAt Bank.result).length

/-- The packets that are handed over in a step. -/
def handed (moment : ProcessingUnit × Shared) : List Packet :=
  let (unit, shared) := afterKernel moment
  (unit.buffers.output? Bank.result).elim [] fun output =>
    handedOver ⟨unit.number, Bank.result⟩ (min output.values.length output.destinations.length)
      output shared.interconnect

/-- Packets leave the output of a unit and are sent, until the interconnect is full or the output
has no more. -/
structure HandsOver (state after : ProcessingUnit × Shared) (packets : List Packet) : Prop where
  resembles : state.1.Resembles after
  values : state.1.buffers.valuesAt Bank.result =
    packets.map (·.value) ++ after.1.buffers.valuesAt Bank.result
  destinations : state.1.buffers.destinationsAt Bank.result =
    packets.map (·.destination) ++ after.1.buffers.destinationsAt Bank.result
  senders : ∀ packet ∈ packets, packet.sender = ⟨state.1.number, Bank.result⟩
  sends : packets.foldlM Interconnect.send state.2.interconnect = .ok after.2.interconnect
  exhausts : after.2.interconnect.canSend = true →
    after.1.buffers.valuesAt Bank.result = [] ∨ after.1.buffers.destinationsAt Bank.result = []

/-- The last part of a step hands packets over, and it never fails. -/
theorem stepOutputs_hands (few : unit.buffers.outputs.length ≤ 1) :
    ∃ after progressed, stepOutputs (unit, shared) = ⟨after, .ok progressed⟩ ∧
      HandsOver (unit, shared) after ((unit.buffers.output? Bank.result).elim [] fun output =>
        handedOver ⟨unit.number, Bank.result⟩
          (min output.values.length output.destinations.length) output shared.interconnect) := by
  obtain ⟨name, number, type, ⟨bankUnit, inputs, outputs⟩, inputManager, outputManager, kernel⟩ :=
    unit
  match outputs, few with
  | [], _ => exact ⟨_, false, rfl, rfl, rfl, rfl, nofun, rfl, fun _ => .inl rfl⟩
  | [output], _ =>
    obtain ⟨after, progressed, hands, handed, exhausts⟩ :=
      handOver_hands ⟨number, Bank.result⟩ _ output shared.interconnect (Nat.le_refl _)
    have all : handOverAll number shared.interconnect 0 [output] =
        ⟨([after.1], after.2), .ok (progressed || false)⟩ := by
      have handsFirst : handOver ⟨number, UInt8.ofNat 0⟩
          (min output.values.length output.destinations.length) output shared.interconnect =
            ⟨after, .ok progressed⟩ := hands
      simp only [handOverAll, handsFirst, idle, Except.map]
    have stepped : stepOutputs (⟨name, number, type, ⟨bankUnit, inputs, [output]⟩, inputManager,
        outputManager, kernel⟩, shared) = ⟨(⟨name, number, type, ⟨bankUnit, inputs, [after.1]⟩,
          inputManager, outputManager, kernel⟩, { shared with interconnect := after.2 }),
          .ok (progressed || false)⟩ := by
      simp only [stepOutputs, all, Stepped.map]
    refine ⟨_, _, stepped, ?_, handed.values, handed.destinations, handed.senders, handed.sends,
      exhausts⟩
    simp [Resembles, reset, Bank.clear, OutputBuffer.clear, handed.depth]

variable {moment : ProcessingUnit × Shared}

/-- What a step adds to the output before packets are handed over. -/
theorem beforeOutputs_adds (isMatch : Matches depth description moment.1) :
    (((stepManager .input moment).andThen (stepManager .output)).andThen stepKernel).Ends
      (fun after => after = afterKernel moment ∧
        Adds moment after (directed moment) (produced moment)) (fun _ => Local) := by
  have inputs : (stepManager .input moment).Ends
      (fun after => after = afterInputs moment ∧ Adds moment after [] []) (fun _ => Local) :=
    (stepInputs_adds (isMatch.fitted.side .input)).reached
  have managers : ∀ middle, middle = afterInputs moment ∧ Adds moment middle [] [] →
      (stepManager .output middle).Ends
        (fun after => after = afterManagers moment ∧ Adds moment after (directed moment) [])
        (fun _ => Local) := by
    rintro _ ⟨rfl, adds⟩
    have side := (isMatch.of_reset_eq adds.resembles).fitted.side .output
    refine (stepDestinations_adds side).reached.mono ?_ fun _ _ => id
    rintro _ ⟨rfl, tags, directs⟩
    have destinations : (afterManagers moment).1.buffers.destinationsAt Bank.result =
        (afterInputs moment).1.buffers.destinationsAt Bank.result ++ tags := directs.destinations
    have isDirected : directed moment = tags := by
      rw [directed, destinations, List.drop_left]
    rw [isDirected]
    exact ⟨rfl, adds.trans directs⟩
  refine (inputs.andThen managers).andThen ?_
  rintro _ ⟨rfl, adds⟩
  refine stepKernel_adds.reached.mono ?_ fun _ _ => id
  rintro _ ⟨rfl, values, gives⟩
  have isValues : (afterKernel moment).1.buffers.valuesAt Bank.result =
      (afterManagers moment).1.buffers.valuesAt Bank.result ++ values := gives.values
  have isProduced : produced moment = values := by
    rw [produced, isValues, List.drop_left]
  rw [isProduced]
  have both := adds.trans gives
  rw [List.append_nil, List.nil_append] at both
  exact ⟨rfl, both⟩

/-- What a whole step does to the output of a unit. -/
theorem step_pairs (isMatch : Matches depth description moment.1) :
    (moment.1.step moment.2).Ends
      (fun after => Adds moment (afterKernel moment) (directed moment) (produced moment) ∧
        HandsOver (afterKernel moment) after (handed moment)) (fun _ => Local) := by
  refine (beforeOutputs_adds isMatch).andThen ?_
  rintro _ ⟨rfl, adds⟩
  have fitted := (isMatch.of_reset_eq adds.resembles).fitted
  have few : (afterKernel moment).1.buffers.outputs.length ≤ 1 := by
    rw [fitted.outputs]
    cases (afterKernel moment).1.type <;> decide
  obtain ⟨after, progressed, hands, handsOver⟩ := stepOutputs_hands few
  rw [hands]
  exact ⟨adds, handsOver⟩

/-! ## Histories -/

variable {moments : List (ProcessingUnit × Shared)}

/-- A unit that was made as described and what all units share, with the moments at which the unit
made its steps. None of these steps has failed. -/
inductive Runs (description : UnitDescription) (depth : Depth) :
    (moments : List (ProcessingUnit × Shared)) → ProcessingUnit → Shared → Prop where
  | start {unit : ProcessingUnit} (made : ofDescription description depth = .ok unit)
      (shared : Shared) : Runs description depth [] unit shared
  | step {moments : List (ProcessingUnit × Shared)} {unit : ProcessingUnit} {shared : Shared}
      (earlier : Runs description depth moments unit shared) {progressed : Bool}
      (succeeds : (unit.step shared).report = .ok progressed) :
      Runs description depth (moments ++ [(unit, shared)]) (unit.step shared).state.1
        (unit.step shared).state.2
  | receive {moments : List (ProcessingUnit × Shared)} {unit after : ProcessingUnit}
      {shared : Shared} (earlier : Runs description depth moments unit shared) {side : Side}
      {instruction : Instruction} (receives : unit.receive side instruction = .ok after) :
      Runs description depth moments after shared
  | arrive {moments : List (ProcessingUnit × Shared)} {unit : ProcessingUnit} {shared : Shared}
      (earlier : Runs description depth moments unit shared) {input : UInt8} {sender : Address}
      {value : Word} {bank : Bank}
      (fills : unit.buffers.alterInput input (·.fill sender value) = .ok bank) :
      Runs description depth moments { unit with buffers := bank } shared
  /-- Anything that happens to what all units share. -/
  | elsewhere {moments : List (ProcessingUnit × Shared)} {unit : ProcessingUnit} {shared : Shared}
      (earlier : Runs description depth moments unit shared) (other : Shared) :
      Runs description depth moments unit other

/-- The account of an output: its packets and what is still in it are all values and all
destinations. -/
structure Paired (description : UnitDescription) (depth : Depth)
    (moments : List (ProcessingUnit × Shared)) (unit : ProcessingUnit) : Prop where
  isMatch : Matches depth description unit
  past : ∀ moment ∈ moments, Matches depth description moment.1 ∧
    ∃ progressed, (moment.1.step moment.2).report = .ok progressed
  values : moments.flatMap produced =
    (moments.flatMap handed).map (·.value) ++ unit.buffers.valuesAt Bank.result
  destinations : moments.flatMap directed =
    (moments.flatMap handed).map (·.destination) ++ unit.buffers.destinationsAt Bank.result
  senders : ∀ packet ∈ moments.flatMap handed, packet.sender = ⟨description.number, Bank.result⟩

theorem Paired.step (paired : Paired description depth moments unit) {progressed : Bool}
    (succeeds : (unit.step shared).report = .ok progressed) :
    Paired description depth (moments ++ [(unit, shared)]) (unit.step shared).state.1 := by
  have pairs := @step_pairs depth description (unit, shared) paired.isMatch
  rw [Ends, succeeds] at pairs
  obtain ⟨adds, hands⟩ := pairs
  have resembles := hands.resembles.trans adds.resembles
  refine ⟨paired.isMatch.of_reset_eq resembles, ?_, ?_, ?_, ?_⟩
  · intro moment member
    rcases List.mem_append.mp member with early | late
    · exact paired.past moment early
    · obtain rfl := List.mem_singleton.mp late
      exact ⟨paired.isMatch, progressed, succeeds⟩
  · have grown : unit.buffers.valuesAt Bank.result ++ produced (unit, shared) =
        (handed (unit, shared)).map (·.value) ++ _ := adds.values.symm.trans hands.values
    rw [List.flatMap_append, List.flatMap_append, List.flatMap_singleton, List.flatMap_singleton,
      paired.values, List.map_append, List.append_assoc, List.append_assoc, grown]
  · have grown : unit.buffers.destinationsAt Bank.result ++ directed (unit, shared) =
        (handed (unit, shared)).map (·.destination) ++ _ :=
      adds.destinations.symm.trans hands.destinations
    rw [List.flatMap_append, List.flatMap_append, List.flatMap_singleton, List.flatMap_singleton,
      paired.destinations, List.map_append, List.append_assoc, List.append_assoc, grown]
  · rw [List.flatMap_append, List.flatMap_singleton]
    intro packet member
    rcases List.mem_append.mp member with early | late
    · exact paired.senders packet early
    · rw [hands.senders packet late, number_eq_of_reset_eq adds.resembles, paired.isMatch.number]

/-- What does not touch the output does not matter to its account. -/
theorem Paired.beside {after : ProcessingUnit} (paired : Paired description depth moments unit)
    (same : after.reset = unit.reset) (outputs : after.buffers.outputs = unit.buffers.outputs) :
    Paired description depth moments after where
  isMatch := paired.isMatch.of_reset_eq same
  past := paired.past
  values := by
    rw [Bank.valuesAt_congr outputs]
    exact paired.values
  destinations := by
    rw [Bank.destinationsAt_congr outputs]
    exact paired.destinations
  senders := paired.senders

/-- Receiving an instruction changes an inbox only. -/
theorem receive_beside {after : ProcessingUnit} {side : Side} {instruction : Instruction}
    (receives : unit.receive side instruction = .ok after) :
    after.reset = unit.reset ∧ after.buffers = unit.buffers := by
  obtain ⟨manager, received, rfl⟩ := Bank.exists_of_map_eq_ok receives
  rw [Manager.receive] at received
  split at received
  · obtain rfl := Except.ok.inj received
    cases side <;> exact ⟨rfl, rfl⟩
  · cases received

theorem Runs.paired (runs : Runs description depth moments unit shared) :
    Paired description depth moments unit := by
  induction runs with
  | @start unit made shared =>
    have empty : unit.buffers.clear = unit.buffers :=
      congrArg (·.buffers) (reset_of_ofDescription made)
    refine ⟨matches_of_ofDescription made, List.forall_mem_nil _, ?_, ?_, List.forall_mem_nil _⟩
    · rw [← empty, Bank.valuesAt_clear]
      rfl
    · rw [← empty, Bank.destinationsAt_clear]
      rfl
  | step earlier succeeds ih => exact ih.step succeeds
  | receive earlier receives ih =>
    obtain ⟨same, buffers⟩ := receive_beside receives
    exact ih.beside same (congrArg (·.outputs) buffers)
  | @arrive moments unit shared earlier input sender value bank fills ih =>
    obtain ⟨buffer, filled, found, isFilled, rfl⟩ := Bank.alterInput_spec fills
    rw [InputBuffer.fill] at isFilled
    split at isFilled
    · rename_i slots _
      obtain rfl := Except.ok.inj isFilled
      have shape : (unit.buffers.setInput input { buffer with slots }).clear =
          unit.buffers.clear := Bank.clear_setInput found rfl
      exact ih.beside (congrArg (fun cleared => { unit.reset with buffers := cleared }) shape) rfl
    · cases isFilled
  | elsewhere earlier other ih => exact ih

/-- Nothing is lost between an output and the interconnect, whatever room the interconnect has.

The packets that a unit has handed over are the first values of its kernel with the first
destinations of the manager of its outputs, pair by pair, and they name the output as their sender.
The other values and destinations are still in the output, in order. No step fails because the
interconnect is full, and after a step that succeeds the interconnect is full or the output has no
value or no destination. In each step the manager and the kernel have only added to the output
before packets were handed over, and the interconnect has changed by the packets being sent. -/
theorem pairs_in_order (runs : Runs description depth moments unit shared) :
    let values := moments.flatMap produced
    let tags := moments.flatMap directed
    let packets := moments.flatMap handed
    let stepped := unit.step shared
    packets = List.zipWith (⟨·, ⟨description.number, Bank.result⟩, ·⟩)
      (values.take packets.length) (tags.take packets.length) ∧
    packets.length ≤ values.length ∧ packets.length ≤ tags.length ∧
    unit.buffers.valuesAt Bank.result = values.drop packets.length ∧
    unit.buffers.destinationsAt Bank.result = tags.drop packets.length ∧
    (∀ limit, stepped.report ≠ .error (.overflow .inFlight limit)) ∧
    (∀ progressed, stepped.report = .ok progressed →
      stepped.state.2.interconnect.capacity ≤ stepped.state.2.interconnect.inFlight.length ∨
      stepped.state.1.buffers.valuesAt Bank.result = [] ∨
      stepped.state.1.buffers.destinationsAt Bank.result = []) ∧
    ∀ moment ∈ moments,
      (afterKernel moment).1.buffers.valuesAt Bank.result =
        moment.1.buffers.valuesAt Bank.result ++ produced moment ∧
      (afterKernel moment).1.buffers.destinationsAt Bank.result =
        moment.1.buffers.destinationsAt Bank.result ++ directed moment ∧
      (handed moment).foldlM Interconnect.send moment.2.interconnect =
        .ok (moment.1.step moment.2).state.2.interconnect := by
  intro values tags packets stepped
  have paired := runs.paired
  have isValues : values = packets.map (·.value) ++ unit.buffers.valuesAt Bank.result :=
    paired.values
  have isTags : tags = packets.map (·.destination) ++ unit.buffers.destinationsAt Bank.result :=
    paired.destinations
  have count : (packets.map (·.value)).length = packets.length := List.length_map _
  have countTags : (packets.map (·.destination)).length = packets.length := List.length_map _
  have pairs := @step_pairs depth description (unit, shared) paired.isMatch
  refine ⟨?_, ?_, ?_, ?_, ?_, ?_, ?_, ?_⟩
  · rw [isValues, isTags, List.take_left' count, List.take_left' countTags]
    exact Chronicle.eq_packets paired.senders
  · rw [isValues, List.length_append, count]
    exact Nat.le_add_right _ _
  · rw [isTags, List.length_append, countTags]
    exact Nat.le_add_right _ _
  · rw [isValues, List.drop_left' count]
  · rw [isTags, List.drop_left' countTags]
  · intro limit overflows
    rw [Ends, overflows] at pairs
    exact pairs limit rfl
  · intro progressed succeeds
    rw [Ends, succeeds] at pairs
    rcases Nat.lt_or_ge stepped.state.2.interconnect.inFlight.length
      stepped.state.2.interconnect.capacity with room | full
    · exact .inr (pairs.2.exhausts (decide_eq_true room))
    · exact .inl full
  · intro moment member
    obtain ⟨isMatch, progressed, succeeds⟩ := paired.past moment member
    have pairsThen := @step_pairs depth description moment isMatch
    rw [Ends, succeeds] at pairsThen
    obtain ⟨adds, hands⟩ := pairsThen
    refine ⟨adds.values, adds.destinations, ?_⟩
    rw [← adds.interconnect]
    exact hands.sends

/-- A unit that passes values on, with room for one packet in the interconnect. -/
def relay : UnitDescription := ⟨"relay", .reorder, "reorder", 2, .empty⟩

theorem relay_paired :
    ∃ moments unit shared, Runs relay ⟨4, by decide, by decide⟩ moments unit shared ∧
      moments.flatMap produced = [.ofNat 7, .ofNat 8] ∧
      moments.flatMap directed = [⟨3, 0⟩, ⟨4, 1⟩] ∧
      moments.flatMap handed = [⟨.ofNat 7, ⟨2, 0⟩, ⟨3, 0⟩⟩] ∧
      unit.buffers.valuesAt Bank.result = [.ofNat 8] ∧
      unit.buffers.destinationsAt Bank.result = [⟨4, 1⟩] := by
  have fresh := @Runs.start relay ⟨4, by decide, by decide⟩ _ rfl ⟨#[], #[], .empty 1⟩
  have first := @Runs.receive _ _ _ _ _ _ fresh .output (.move ⟨2, 0⟩ ⟨3, 0⟩) rfl
  have second := @Runs.receive _ _ _ _ _ _ first .output (.move ⟨2, 0⟩ ⟨4, 1⟩) rfl
  have third := @Runs.receive _ _ _ _ _ _ second .input (.immediate (.ofNat 7) ⟨2, 0⟩) rfl
  have fourth := @Runs.receive _ _ _ _ _ _ third .input (.immediate (.ofNat 8) ⟨2, 0⟩) rfl
  have fetched := @Runs.step _ _ _ _ _ fourth true rfl
  have sent := @Runs.step _ _ _ _ _ fetched true rfl
  have fetchedAgain := @Runs.step _ _ _ _ _ sent true rfl
  have waiting := @Runs.step _ _ _ _ _ fetchedAgain true rfl
  obtain ⟨-, -, -, values, tags, -⟩ := pairs_in_order waiting
  exact ⟨_, _, _, waiting, rfl, rfl, rfl, values, tags⟩

end ProcessingUnit

end MoveMachine
