import MoveMachine.Proofs.Manager
import Mathlib.Tactic.MkIffOfInductiveProp

/-!
# Units in the network

A unit has its seat in the network: `Network.seat` puts the buffers, managers
and kernel of a unit in the place of what the network has under its number.

The shape of a unit does not change while it works: resetting it gives the same
unit before and after. From the shape follow the depths of its buffers, the
number of its inputs and outputs and the capacity of its inboxes
(`ProcessingUnit.Fitted`), and whether the buffers that a program names exist
(`ProcessingUnit.Serves`).

A step is explained (`Network.Explained`) if it leads along events of a certain
form, such as the events that are the work of one part of the machine, and if the
only faults are those of a kernel; a step without a fault leads along events
without failures.
-/

set_option autoImplicit false

namespace MoveMachine

namespace ProcessingUnit

/-- A unit whose parts fit its number, its kind and the depth of the buffers. -/
@[mk_iff]
structure Fitted (depth : Depth) (unit : ProcessingUnit) : Prop where
  bank : unit.buffers.unit = unit.number
  inputs : unit.buffers.inputs.length = (unit.type.buffers .input).length
  outputs : unit.buffers.outputs.length = (unit.type.buffers .output).length
  inputDepth : ∀ buffer ∈ unit.buffers.inputs, buffer.depth = depth
  outputDepth : ∀ buffer ∈ unit.buffers.outputs, buffer.depth = depth
  side : ∀ side, (unit.manager side).side = side
  number : ∀ side, (unit.manager side).unit = unit.number
  capacity : ∀ side, (unit.manager side).capacity = depth.value
  kernel : unit.kernel.type = unit.type

/-- Every buffer of a unit that a program names exists. -/
structure Serves (program : List Instruction) (unit : ProcessingUnit) : Prop where
  input : ∀ instruction ∈ program, ∀ input : Address, input.unit = unit.number →
    instruction.goesTo input = true → input.buffer.toNat < unit.buffers.inputs.length
  output : ∀ instruction ∈ program, ∀ output : Address, output.unit = unit.number →
    instruction.comesFrom output = true → output.buffer.toNat < unit.buffers.outputs.length

theorem reset_number (unit : ProcessingUnit) : unit.reset.number = unit.number := rfl

theorem number_eq_of_reset_eq {unit other : ProcessingUnit} (same : other.reset = unit.reset) :
    other.number = unit.number :=
  (reset_number other).symm.trans ((congrArg ProcessingUnit.number same).trans (reset_number unit))

@[simp] theorem manager_reset (unit : ProcessingUnit) (side : Side) :
    unit.reset.manager side = (unit.manager side).reset := by
  cases side <;> rfl

/-- Whether a unit is fitted can be told from its shape. -/
theorem fitted_reset_iff {depth : Depth} {unit : ProcessingUnit} :
    unit.reset.Fitted depth ↔ unit.Fitted depth := by
  have inputDepth : (∀ buffer ∈ unit.reset.buffers.inputs, buffer.depth = depth) ↔
      ∀ buffer ∈ unit.buffers.inputs, buffer.depth = depth :=
    List.forall_mem_map
  have outputDepth : (∀ buffer ∈ unit.reset.buffers.outputs, buffer.depth = depth) ↔
      ∀ buffer ∈ unit.buffers.outputs, buffer.depth = depth :=
    List.forall_mem_map
  rw [fitted_iff, fitted_iff, inputDepth, outputDepth]
  simp only [manager_reset]
  simp [reset, Bank.clear, Manager.reset, Kernel.type_reset]

theorem Fitted.of_reset_eq {depth : Depth} {unit other : ProcessingUnit}
    (fitted : unit.Fitted depth) (same : other.reset = unit.reset) : other.Fitted depth :=
  fitted_reset_iff.mp (same ▸ fitted_reset_iff.mpr fitted)

theorem Serves.of_reset_eq {program : List Instruction} {unit other : ProcessingUnit}
    (serves : unit.Serves program) (same : other.reset = unit.reset) : other.Serves program := by
  have number := number_eq_of_reset_eq same
  have inputs : other.buffers.inputs.length = unit.buffers.inputs.length := by
    simpa [reset, Bank.clear] using congrArg (·.buffers.inputs.length) same
  have outputs : other.buffers.outputs.length = unit.buffers.outputs.length := by
    simpa [reset, Bank.clear] using congrArg (·.buffers.outputs.length) same
  constructor
  · intro instruction member input own goes
    rw [inputs]
    exact serves.input instruction member input (own.trans number) goes
  · intro instruction member output own comes
    rw [outputs]
    exact serves.output instruction member output (own.trans number) comes

/-- An existing input of a fitted unit has the depth that all buffers have. -/
theorem Fitted.input? {depth : Depth} {unit : ProcessingUnit} (fitted : unit.Fitted depth)
    {index : UInt8} {buffer : InputBuffer} (found : unit.buffers.input? index = some buffer) :
    buffer.depth = depth :=
  fitted.inputDepth buffer (List.mem_of_getElem? found)

theorem Fitted.output? {depth : Depth} {unit : ProcessingUnit} (fitted : unit.Fitted depth)
    {index : UInt8} {buffer : OutputBuffer} (found : unit.buffers.output? index = some buffer) :
    buffer.depth = depth :=
  fitted.outputDepth buffer (List.mem_of_getElem? found)

/-- The output has room exactly if it exists and is not full. -/
theorem Fitted.length_lt_of_hasRoom {depth : Depth} {unit : ProcessingUnit}
    (fitted : unit.Fitted depth) (room : unit.buffers.hasRoom = true) :
    (unit.buffers.valuesAt Bank.result).length < depth.value := by
  obtain ⟨buffer, found, notFull⟩ := (Option.any_eq_true _ _).mp room
  rw [Bank.valuesAt_of_output? found, ← fitted.output? found]
  simpa [OutputBuffer.valuesFull] using notFull

end ProcessingUnit

namespace Network

/-! ## Seats -/

/-- The network with a unit in the place of the one with its number. -/
def seat (network : Network) (unit : ProcessingUnit) (shared : Shared) : Network :=
  { network with
    slots := fun input =>
      if input.unit = unit.number then unit.buffers.slotsAt input.buffer else network.slots input
    values := fun output =>
      if output.unit = unit.number then unit.buffers.valuesAt output.buffer
      else network.values output
    destinations := fun output =>
      if output.unit = unit.number then unit.buffers.destinationsAt output.buffer
      else network.destinations output
    pending := fun post =>
      if post.1 = unit.number then (unit.manager post.2).pending else network.pending post
    inbox := fun post =>
      if post.1 = unit.number then (unit.manager post.2).inbox else network.inbox post
    kernel := Function.update network.kernel unit.number (some unit.kernel)
    shared }

section Seated

variable {base : Network} {unit : ProcessingUnit} {shared : Shared} {bank : Bank}

/-! ## What a change of a unit is to the network -/

@[simp] theorem seat_pending (side : Side) :
    (base.seat unit shared).pending (unit.number, side) = (unit.manager side).pending := by
  simp [seat]

@[simp] theorem seat_inbox (side : Side) :
    (base.seat unit shared).inbox (unit.number, side) = (unit.manager side).inbox := by
  simp [seat]

theorem seat_held (post : UInt8 × Side) : (base.seat unit shared).held post =
    if post.1 = unit.number then (unit.manager post.2).pending.toList ++ (unit.manager post.2).inbox
    else base.held post := by
  simp only [held, seat]
  split <;> rfl

theorem seat_inbox_same (side : Side) :
    Function.update (base.seat unit shared).inbox (unit.number, side) (unit.manager side).inbox =
      (base.seat unit shared).inbox := by
  rw [← seat_inbox, Function.update_eq_self]

@[simp] theorem seat_slotsAt (index : UInt8) :
    (base.seat unit shared).slots ⟨unit.number, index⟩ = unit.buffers.slotsAt index := by
  simp [seat]

@[simp] theorem seat_valuesAt (index : UInt8) :
    (base.seat unit shared).values ⟨unit.number, index⟩ = unit.buffers.valuesAt index := by
  simp [seat]

theorem seat_values_same (unit : ProcessingUnit) (shared : Shared) (index : UInt8) :
    Function.update (base.seat unit shared).values ⟨unit.number, index⟩
        (unit.buffers.valuesAt index) = (base.seat unit shared).values := by
  rw [← seat_valuesAt index, Function.update_eq_self]

@[simp] theorem seat_destinationsAt (index : UInt8) :
    (base.seat unit shared).destinations ⟨unit.number, index⟩ =
      unit.buffers.destinationsAt index := by
  simp [seat]

@[simp] theorem seat_kernel : (base.seat unit shared).kernel unit.number = some unit.kernel := by
  simp [seat]

theorem seat_setManager (side : Side) (manager : Manager) :
    base.seat (unit.setManager side manager) shared =
      { base.seat unit shared with
        pending := Function.update (base.seat unit shared).pending (unit.number, side)
          manager.pending
        inbox := Function.update (base.seat unit shared).inbox (unit.number, side)
          manager.inbox } := by
  refine Network.ext ?_ ?_ ?_ ?_ ?_ ?_ rfl rfl rfl rfl
  case refine_4 =>
    funext ⟨number, other⟩
    by_cases here : number = unit.number
    · cases side <;> cases other <;>
        simp [seat, here, ProcessingUnit.setManager, ProcessingUnit.manager, Function.update_apply]
    · cases side <;> simp [seat, here, ProcessingUnit.setManager]
  case refine_5 =>
    funext ⟨number, other⟩
    by_cases here : number = unit.number
    · cases side <;> cases other <;>
        simp [seat, here, ProcessingUnit.setManager, ProcessingUnit.manager, Function.update_apply]
    · cases side <;> simp [seat, here, ProcessingUnit.setManager]
  all_goals cases side <;> rfl

/-- A change of one input of a unit. -/
theorem seat_slots (unit : ProcessingUnit) {index : UInt8} {slots : List Slot}
    (changes : bank.slotsAt = Function.update unit.buffers.slotsAt index slots)
    (outputs : bank.outputs = unit.buffers.outputs) :
    base.seat { unit with buffers := bank } shared =
      { base.seat unit shared with
        slots := Function.update (base.seat unit shared).slots ⟨unit.number, index⟩ slots } := by
  refine Network.ext ?_ ?_ ?_ ?_ ?_ rfl rfl rfl rfl rfl
  · funext ⟨number, buffer⟩
    by_cases here : number = unit.number
    · simp [seat, here, changes, Function.update_apply]
    · simp [seat, here]
  · simp [seat, Bank.valuesAt_congr outputs]
  · simp [seat, Bank.destinationsAt_congr outputs]
  · funext ⟨number, side⟩
    cases side <;> rfl
  · funext ⟨number, side⟩
    cases side <;> rfl

/-- A change of one output of a unit, and of what the units share. -/
theorem seat_outputs (unit : ProcessingUnit) (shared : Shared) {index : UInt8}
    {values : List Word} {destinations : List Address}
    {sharing : Shared}
    (changesValues : bank.valuesAt = Function.update unit.buffers.valuesAt index values)
    (changesDestinations :
      bank.destinationsAt = Function.update unit.buffers.destinationsAt index destinations)
    (inputs : bank.inputs = unit.buffers.inputs) :
    base.seat { unit with buffers := bank } sharing =
      { base.seat unit shared with
        values := Function.update (base.seat unit shared).values ⟨unit.number, index⟩ values
        destinations := Function.update (base.seat unit shared).destinations ⟨unit.number, index⟩
          destinations
        shared := sharing } := by
  refine Network.ext ?_ ?_ ?_ ?_ ?_ rfl rfl rfl rfl rfl
  · simp [seat, Bank.slotsAt_congr inputs]
  · funext ⟨number, buffer⟩
    by_cases here : number = unit.number
    · simp [seat, here, changesValues, Function.update_apply]
    · simp [seat, here]
  · funext ⟨number, buffer⟩
    by_cases here : number = unit.number
    · simp [seat, here, changesDestinations, Function.update_apply]
    · simp [seat, here]
  · funext ⟨number, side⟩
    cases side <;> rfl
  · funext ⟨number, side⟩
    cases side <;> rfl

/-- What a change that leaves an output side alone is to the network. -/
theorem seat_values_of_eq (unit : ProcessingUnit) (shared sharing : Shared) (kernel : Kernel)
    (same : bank.valuesAt = unit.buffers.valuesAt) :
    (base.seat { unit with kernel, buffers := bank } sharing).values =
      (base.seat unit shared).values :=
  congrArg (fun (values : UInt8 → List Word) (output : Address) =>
    if output.unit = unit.number then values output.buffer else base.values output) same

theorem seat_destinations_of_eq (unit : ProcessingUnit) (shared sharing : Shared)
    (kernel : Kernel) (same : bank.destinationsAt = unit.buffers.destinationsAt) :
    (base.seat { unit with kernel, buffers := bank } sharing).destinations =
      (base.seat unit shared).destinations :=
  congrArg (fun (destinations : UInt8 → List Address) (output : Address) =>
    if output.unit = unit.number then destinations output.buffer
    else base.destinations output) same

end Seated

/-! ## Explanations -/

section Explained

variable {program : List Instruction} {depth : Nat} {before : Network} {State Other : Type}

/-- Whether events of a certain form, none of which is a failure, lead from one network to another. -/
def Leads (program : List Instruction) (depth : Nat) (before : Network) (form : History → Prop)
    (network : Network) : Prop :=
  ∃ events : History,
    Evolves program depth before events network ∧ form events ∧ events.Undisturbed

/-- A step leads from a network along events of a certain form to a state that is still of the right
shape. Its faults are those of kernels, and without a fault none of the events is a failure. -/
def Explained (program : List Instruction) (depth : Nat) (before : Network)
    (form : History → Prop) (embed : State → Network) (kept : State → Prop)
    (stepped : Stepped State) : Prop :=
  kept stepped.state ∧
    ∃ events : History, Evolves program depth before events (embed stepped.state) ∧ form events ∧
      match stepped.report with
      | .ok _ => events.Undisturbed
      | .error fault => fault.isKernelFault = true

variable {form formRest whole : History → Prop} {part : Part} {embed : State → Network}
  {kept : State → Prop}

theorem Leads.here (network : Network) (part : Part) :
    Leads program depth network (History.Of part) network :=
  ⟨[], .start, History.of_nil part, List.forall_mem_nil _⟩

theorem Leads.step {network after : Network} {event : Event}
    (leads : Leads program depth before (History.Of part) network)
    (happens : Step program depth network event after) (isPart : event.part = part)
    (quiet : event.disturbs = false) : Leads program depth before (History.Of part) after := by
  obtain ⟨events, evolves, isForm, undisturbed⟩ := leads
  refine ⟨events ++ [event], evolves.step happens, ?_, ?_⟩
  · exact isForm.append (isPart ▸ History.of_singleton event)
  · exact (History.undisturbed_append _).mpr
      ⟨undisturbed, by simpa [History.Undisturbed] using quiet⟩

/-- A single event leads to what comes of it. -/
theorem Leads.event {network : Network} {event : Event}
    (happens : Step program depth before event network) (isPart : event.part = part)
    (quiet : event.disturbs = false) : Leads program depth before (History.Of part) network :=
  (Leads.here before part).step happens isPart quiet

theorem Leads.trans {middle network : Network}
    (leads : Leads program depth before form middle)
    (leadsOn : Leads program depth middle formRest network)
    (joins : ∀ events later, form events → formRest later → whole (events ++ later)) :
    Leads program depth before whole network := by
  obtain ⟨events, evolves, isForm, undisturbed⟩ := leads
  obtain ⟨later, evolvesOn, isFormLater, undisturbedLater⟩ := leadsOn
  exact ⟨events ++ later, evolves.trans evolvesOn, joins events later isForm isFormLater,
    (History.undisturbed_append later).mpr ⟨undisturbed, undisturbedLater⟩⟩

theorem Leads.reachable {network : Network} (leads : Leads program depth before form network)
    (reachable : before.Reachable program depth) : network.Reachable program depth := by
  obtain ⟨events, evolves, -⟩ := leads
  exact reachable.trans evolves

theorem Leads.explained {state : State} (keeps : kept state)
    (leads : Leads program depth before form (embed state)) (report : Bool) :
    Explained program depth before form embed kept ⟨state, .ok report⟩ :=
  ⟨keeps, leads⟩

theorem Explained.idle {state : State} (keeps : kept state) (report : Bool) :
    Explained program depth (embed state) (History.Of part) embed kept ⟨state, .ok report⟩ :=
  (Leads.here (embed state) part).explained keeps report

/-- A single event explains a step. -/
theorem Explained.event (event : Event) {state : State} {report : Bool} (keeps : kept state)
    (happens : Step program depth before event (embed state)) (isPart : event.part = part)
    (quiet : event.disturbs = false) :
    Explained program depth before (History.Of part) embed kept ⟨state, .ok report⟩ :=
  (Leads.event happens isPart quiet).explained keeps report

theorem Explained.fault (event : Event) {state : State} {fault : Fault} (keeps : kept state)
    (happens : Step program depth before event (embed state)) (isPart : event.part = part)
    (kernelFault : fault.isKernelFault = true) :
    Explained program depth before (History.Of part) embed kept ⟨state, .error fault⟩ :=
  ⟨keeps, [event], .step .start happens, isPart ▸ History.of_singleton event, kernelFault⟩

/-- What explains a step explains it from an earlier network on as well, if nothing failed on the
way from there. -/
theorem Explained.after {middle : Network} {between : History} {stepped : Stepped State}
    (evolves : Evolves program depth before between middle) (undisturbed : between.Undisturbed)
    (explained : Explained program depth middle formRest embed kept stepped)
    (joins : ∀ later, formRest later → whole (between ++ later)) :
    Explained program depth before whole embed kept stepped := by
  obtain ⟨keeps, later, evolvesOn, isForm, sound⟩ := explained
  refine ⟨keeps, between ++ later, evolves.trans evolvesOn, joins later isForm, ?_⟩
  cases reported : stepped.report with
  | error fault => simpa [reported] using sound
  | ok progressed =>
    rw [reported] at sound
    exact (History.undisturbed_append later).mpr ⟨undisturbed, sound⟩

/-- States of the right shape may be seen in another way, and so may the events that lead to
them. -/
theorem Explained.mono {seen : State → Network} {keeping : State → Prop} {stepped : Stepped State}
    (explained : Explained program depth before form embed kept stepped)
    (agrees : ∀ state, kept state → seen state = embed state)
    (keeps : ∀ state, kept state → keeping state)
    (forms : kept stepped.state → ∀ events,
      Evolves program depth before events (embed stepped.state) → form events → whole events) :
    Explained program depth before whole seen keeping stepped := by
  obtain ⟨shape, events, evolves, isForm, sound⟩ := explained
  refine ⟨keeps _ shape, events, ?_, forms shape events evolves isForm, sound⟩
  rw [agrees _ shape]
  exact evolves

/-- What a step reports besides its fault does not matter to its explanation. -/
theorem Explained.report {state : State} {report other : Except Fault Bool}
    (explained : Explained program depth before form embed kept ⟨state, report⟩)
    (same : ∀ fault, report = .error fault ↔ other = .error fault) :
    Explained program depth before form embed kept ⟨state, other⟩ := by
  obtain ⟨keeps, events, evolves, isForm, sound⟩ := explained
  refine ⟨keeps, events, evolves, isForm, ?_⟩
  cases other with
  | error fault =>
    obtain rfl := (same fault).mpr rfl
    exact sound
  | ok progressed =>
    cases report with
    | error fault => exact absurd ((same fault).mp rfl) (by simp)
    | ok _ => exact sound

/-- Steps that follow each other are explained together. -/
theorem Explained.andThen {first : Stepped State} {next : State → Stepped State}
    (explained : Explained program depth before form embed kept first)
    (continues : ∀ events, Evolves program depth before events (embed first.state) →
      kept first.state →
        Explained program depth (embed first.state) formRest embed kept (next first.state))
    (joins : ∀ progressed, first.report = .ok progressed → ∀ events later,
      form events → formRest later → whole (events ++ later))
    (stops : ∀ fault, first.report = .error fault → ∀ events, form events → whole events) :
    Explained program depth before whole embed kept (first.andThen next) := by
  obtain ⟨keeps, events, evolves, isForm, sound⟩ := explained
  obtain ⟨state, report⟩ := first
  cases report with
  | error fault => exact ⟨keeps, events, evolves, stops fault rfl events isForm, sound⟩
  | ok progressed =>
    refine Explained.after evolves sound
      ((continues events evolves keeps).report fun fault => ?_)
      fun later => joins progressed rfl events later isForm
    cases (next state).report <;> simp [Except.map]

/-- Steps of one part that follow each other are explained together. -/
theorem Explained.andThenOf {first : Stepped State} {next : State → Stepped State}
    (explained : Explained program depth before (History.Of part) embed kept first)
    (continues : kept first.state →
      Explained program depth (embed first.state) (History.Of part) embed kept
        (next first.state)) :
    Explained program depth before (History.Of part) embed kept (first.andThen next) :=
  explained.andThen (fun _ _ => continues) (fun _ _ _ _ => History.Of.append) fun _ _ _ => id

/-- After the step of one item of a list come the steps of those behind it. -/
theorem Explained.cons {Item Rest : Type} {embed : List Item × Rest → Network}
    {kept : List Item × Rest → Prop} {item : Item} {later : List Item} {shared : Rest}
    {progressed : Bool} {rest : Stepped (List Item × Rest)}
    (explained : Explained program depth before form (embed ∘ Prod.map (· :: later) id)
      (kept ∘ Prod.map (· :: later) id) ⟨(item, shared), .ok progressed⟩)
    (continues : ∀ events, Evolves program depth before events (embed (item :: later, shared)) →
      kept (item :: later, shared) →
        Explained program depth (embed (item :: later, shared)) formRest
          (embed ∘ Prod.map (item :: ·) id) (kept ∘ Prod.map (item :: ·) id) rest)
    (joins : ∀ events later, form events → formRest later → whole (events ++ later)) :
    Explained program depth before whole embed kept
      ⟨(item :: rest.state.1, rest.state.2), rest.report.map (progressed || ·)⟩ := by
  obtain ⟨keeps, events, evolves, isForm, undisturbed⟩ := explained
  refine Explained.after evolves undisturbed
    ((continues events evolves keeps).report fun fault => ?_) fun later => joins events later isForm
  cases rest.report <;> simp [Except.map]

/-- A step of a part, seen from the whole. -/
theorem Explained.map {part : Stepped Other} {whole : Other → State}
    (explained : Explained program depth before form (embed ∘ whole) (kept ∘ whole) part) :
    Explained program depth before form embed kept (part.map whole) :=
  explained

end Explained

end Network

namespace ProcessingUnit

/-- The network in which a unit has its seat. -/
def seated (base : Network) (state : ProcessingUnit × Shared) : Network :=
  base.seat state.1 state.2

/-- Whether a unit, with what all units share, is still of the shape of a given one. -/
def Resembles (unit : ProcessingUnit) (state : ProcessingUnit × Shared) : Prop :=
  state.1.reset = unit.reset

end ProcessingUnit
end MoveMachine
