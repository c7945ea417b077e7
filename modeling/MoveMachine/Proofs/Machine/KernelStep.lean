import MoveMachine.Proofs.Machine.Seat

/-!
# Steps of a kernel in its unit

A step of the kernel of a unit that has its seat in a network is explained by
events of that network (`ProcessingUnit.stepKernel_explained`): the markers that
it retires are cleared one by one, and each of its firings is an event.

Two parts of the step go over all inputs of the unit at once, the retiring of
markers and the collecting of the control unit. Both are taken apart into single
slots: over the inputs (`sweep`), and over the slots of one input.
-/

set_option autoImplicit false

namespace MoveMachine

/-! ## Going over all inputs -/

/-- What holds however far the items of a list have been changed, and their yields gathered, holds
when all have been. -/
theorem sweep {Item Yield : Type} {reached : List Item → List Yield → Prop}
    (change : Item → List Yield × Item)
    (one : ∀ done item later got, reached (done ++ item :: later) got →
      reached (done ++ (change item).2 :: later) (got ++ (change item).1))
    (items : List Item) (before : reached items []) :
    reached (items.map fun item => (change item).2)
      (items.flatMap fun item => (change item).1) := by
  suffices general : ∀ (later done : List Item) (got : List Yield), reached (done ++ later) got →
      reached (done ++ later.map fun item => (change item).2)
        (got ++ later.flatMap fun item => (change item).1) by
    simpa using general items [] [] before
  intro later
  induction later with
  | nil =>
    intro done got before
    simpa using before
  | cons item later ih =>
    intro done got before
    have moved := one done item later got before
    simpa using ih (done ++ [(change item).2]) (got ++ (change item).1) (by simpa using moved)

/-- The place of an item in a short list fits into a byte. -/
theorem toNat_place {Item : Type} {done later : List Item} {item : Item}
    (few : (done ++ item :: later).length ≤ 256) :
    (UInt8.ofNat done.length).toNat = done.length := by
  refine UInt8.toNat_ofNat_of_lt' ?_
  simp only [List.length_append, List.length_cons] at few
  have bytes : UInt8.size = 256 := rfl
  omega

namespace Bank

/-- Retiring the oldest slot of an input, by the place of the input in the list of all. -/
theorem retires_front {bank : Bank} {done later : List InputBuffer} {depth : Depth} {slot : Slot}
    {younger : List Slot} (inputs : bank.inputs = done ++ ⟨depth, slot :: younger⟩ :: later)
    (few : bank.inputs.length ≤ 256) :
    bank.Retires [(UInt8.ofNat done.length, slot)]
      { bank with inputs := done ++ ⟨depth, younger⟩ :: later } := by
  have place := toNat_place (inputs ▸ few)
  have found : bank.input? (UInt8.ofNat done.length) = some ⟨depth, slot :: younger⟩ := by
    simp [input?, place, inputs]
  have after : { bank with inputs := done ++ ⟨depth, younger⟩ :: later } =
      bank.setInput (UInt8.ofNat done.length) ⟨depth, younger⟩ := by
    simp [setInput, place, inputs]
  rw [after]
  refine ⟨?_, ?_, rfl, clear_setInput found rfl⟩
  · simp [slotsAt_of_input? found]
  · intro index
    rw [slotsAt_setInput found, Function.update_apply]
    by_cases same : index = UInt8.ofNat done.length
    · simp [same, slotsAt_of_input? found]
    · simp [same]

end Bank

namespace ProcessingUnit

open Network

variable {program : List Instruction} {depth : Depth} {before base : Network}
  {unit : ProcessingUnit} {interconnect : Interconnect} {work : Workspace}

/-- A unit whose kernel has come to a workspace. -/
def working (unit : ProcessingUnit) (interconnect : Interconnect) (work : Workspace) :
    ProcessingUnit × Shared :=
  ({ unit with kernel := work.kernel, buffers := work.buffers },
    ⟨work.memory, work.results, interconnect⟩)

theorem resembles_working_iff :
    unit.Resembles (working unit interconnect work) ↔
      work.buffers.clear = unit.buffers.clear ∧ work.kernel.reset = unit.kernel.reset := by
  simp [Resembles, working, reset]

/-! ## Single events -/

/-- The slots of a unit that has retired some. -/
theorem seat_retired (unit : ProcessingUnit) {kernel : Kernel} {bank retired : Bank}
    {taken : List (UInt8 × Slot)}
    (shared sharing : Shared) (retires : unit.buffers.Retires taken retired)
    (inputs : bank.inputs = retired.inputs) :
    (base.seat { unit with kernel, buffers := bank } sharing).slots =
      (base.seat unit shared).retire unit.number (taken.map (·.1)) := by
  funext input
  by_cases here : input.unit = unit.number
  · by_cases isPort : input.buffer ∈ taken.map (·.1)
    · simp only [seat, retire, here, isPort, and_self, if_true, Bank.slotsAt_congr inputs,
        retires.slotsAt]
    · simp only [seat, retire, here, isPort, and_false, if_true, if_false,
        Bank.slotsAt_congr inputs, retires.slotsAt]
  · simp only [seat, retire, here, false_and, if_false]

/-- A firing is an event of the network. -/
theorem fire_step (taken : List (UInt8 × Slot)) (words : List Word) (reaction : Reaction)
    {retired after : Bank} (fitted : (working unit interconnect work).1.Fitted depth)
    (awaits : work.kernel.Awaits (taken.map (·.1)))
    (room : work.kernel.produces = true → work.buffers.hasRoom = true)
    (holds : taken.map (·.2.value?) = words.map some)
    (retires : work.buffers.Retires taken retired)
    (reacts : work.kernel.react unit.number work.memory words = .ok reaction)
    (emits : retired.Emits reaction.emitted after) :
    Step program depth.value (seated base (working unit interconnect work))
      (.fire unit.number taken reaction.emitted)
      (seated base (working unit interconnect
        ⟨reaction.kernel, after, reaction.memory,
          work.results ++ reaction.collected.toArray⟩)) := by
  have becomes : seated base (working unit interconnect
      ⟨reaction.kernel, after, reaction.memory, work.results ++ reaction.collected.toArray⟩) =
      { seated base (working unit interconnect work) with
        slots := (seated base (working unit interconnect work)).retire unit.number
          (taken.map (·.1))
        values := Function.update (seated base (working unit interconnect work)).values
          ⟨unit.number, Bank.result⟩ ((seated base (working unit interconnect work)).values
            ⟨unit.number, Bank.result⟩ ++ reaction.emitted.toList)
        kernel := Function.update (seated base (working unit interconnect work)).kernel
          unit.number (some reaction.kernel)
        shared := { (seated base (working unit interconnect work)).shared with
          memory := reaction.memory
          results := (seated base (working unit interconnect work)).shared.results ++
            reaction.collected.toArray } } := by
    refine Network.ext ?_ ?_ ?_ ?_ ?_ ?_ rfl rfl rfl rfl
    · exact seat_retired (working unit interconnect work).1 _ _ retires emits.inputs
    · funext output
      obtain ⟨number, index⟩ := output
      by_cases here : number = unit.number
      · simp [seated, working, seat, here, emits.valuesAt, Bank.valuesAt_congr retires.outputs,
          Function.update_apply]
      · simp [seated, working, seat, here]
    · exact seat_destinations_of_eq (working unit interconnect work).1
        (working unit interconnect work).2 _ _
        (emits.destinationsAt.trans (Bank.destinationsAt_congr retires.outputs))
    · funext post
      obtain ⟨number, side⟩ := post
      cases side <;> rfl
    · funext post
      obtain ⟨number, side⟩ := post
      cases side <;> rfl
    · simp [seated, working, seat]
  rw [becomes]
  refine .fire seat_kernel awaits ?_ ?_ holds reacts
  · intro produces
    simpa [seated, working] using fitted.length_lt_of_hasRoom (room produces)
  · intro entry member
    simpa [seated, working] using retires.heads entry member

/-- What a unit is when its kernel has only retired slots. -/
theorem seated_retired {retired : Bank} {taken : List (UInt8 × Slot)}
    (retires : work.buffers.Retires taken retired) :
    seated base (working unit interconnect { work with buffers := retired }) =
      { seated base (working unit interconnect work) with
        slots := (seated base (working unit interconnect work)).retire unit.number
          (taken.map (·.1)) } := by
  refine Network.ext ?_ ?_ ?_ ?_ ?_ rfl rfl rfl rfl rfl
  · exact seat_retired (working unit interconnect work).1 _ _ retires rfl
  · exact seat_values_of_eq (working unit interconnect work).1
      (working unit interconnect work).2 _ _
      (Bank.valuesAt_congr retires.outputs)
  · exact seat_destinations_of_eq (working unit interconnect work).1
        (working unit interconnect work).2 _ _
      (Bank.destinationsAt_congr retires.outputs)
  · funext ⟨number, side⟩
    cases side <;> rfl
  · funext ⟨number, side⟩
    cases side <;> rfl

/-- A firing that fails is an event of the network. -/
theorem fail_step {taken : List (UInt8 × Slot)} {words : List Word} {fault : Fault}
    {retired : Bank} (fitted : (working unit interconnect work).1.Fitted depth)
    (awaits : work.kernel.Awaits (taken.map (·.1)))
    (room : work.kernel.produces = true → work.buffers.hasRoom = true)
    (holds : taken.map (·.2.value?) = words.map some)
    (retires : work.buffers.Retires taken retired)
    (reacts : work.kernel.react unit.number work.memory words = .error fault) :
    Step program depth.value (seated base (working unit interconnect work))
      (.fail unit.number taken)
      (seated base (working unit interconnect { work with buffers := retired })) := by
  rw [seated_retired retires]
  refine .fail seat_kernel awaits ?_ ?_ holds reacts
  · intro produces
    simpa [seated, working] using fitted.length_lt_of_hasRoom (room produces)
  · intro entry member
    simpa [seated, working] using retires.heads entry member

/-- A marker that is retired is cleared in the network. -/
theorem clear_step {index : UInt8} {retired : Bank}
    (retires : work.buffers.Retires [(index, .marker)] retired) :
    Step program depth.value (seated base (working unit interconnect work))
      (.clear ⟨unit.number, index⟩)
      (seated base (working unit interconnect { work with buffers := retired })) := by
  have head := retires.heads _ (List.mem_singleton_self _)
  obtain ⟨younger, slots⟩ := List.head?_eq_some_iff.mp head
  have front : (seated base (working unit interconnect work)).slots ⟨unit.number, index⟩ =
      .marker :: younger := by
    rw [← slots]
    exact seat_slotsAt index
  have others : (seated base (working unit interconnect work)).retire unit.number [index] =
      Function.update (seated base (working unit interconnect work)).slots ⟨unit.number, index⟩
        younger := by
    funext ⟨number, other⟩
    by_cases here : number = unit.number ∧ other = index
    · obtain ⟨rfl, rfl⟩ := here
      simp [retire, front]
    · simp [retire, here]
  rw [seated_retired retires, List.map_singleton, others]
  exact .clear front

/-! ## The parts of a step -/

/-- A part of a kernel's step that is one firing at most is explained. -/
theorem explained_of_outcome {stepped : Stepped Workspace} (fitted : unit.Fitted depth)
    (keeps : unit.Resembles (working unit interconnect work))
    (outcome : Kernel.Outcome unit.number work stepped) :
    Explained program depth.value (seated base (working unit interconnect work))
      (History.Of (.kernel unit.number)) (seated base ∘ working unit interconnect)
      (unit.Resembles ∘ working unit interconnect) stepped := by
  have fits := fitted.of_reset_eq keeps
  obtain ⟨shape, kind⟩ := resembles_working_iff.mp keeps
  cases outcome with
  | idle blocked => exact Explained.idle keeps false
  | fired taken words reaction awaits room holds retires reacts emits =>
    refine Explained.event _ ?_
      (fire_step taken words reaction fits awaits room holds retires reacts emits) rfl rfl
    refine resembles_working_iff.mpr ⟨?_, ?_⟩
    · exact emits.clear.trans (retires.clear.trans shape)
    · exact (Kernel.allows_of_react reacts).shape.trans kind
  | faulted taken words awaits room holds retires reacts =>
    refine Explained.fault _ ?_ (fail_step fits awaits room holds retires reacts) rfl
      (Kernel.isKernelFault_of_react reacts)
    exact resembles_working_iff.mpr ⟨retires.clear.trans shape, kind⟩

/-- A fitted unit has few inputs. -/
theorem Fitted.inputs_length_le (fitted : unit.Fitted depth) :
    unit.buffers.inputs.length ≤ 256 := by
  rw [fitted.inputs]
  cases unit.type <;> decide

/-- Whether a kernel can come to a workspace without a failure. -/
def Reaches (program : List Instruction) (depth : Nat) (before base : Network)
    (unit : ProcessingUnit) (interconnect : Interconnect) (work : Workspace) : Prop :=
  unit.Resembles (working unit interconnect work) ∧
    Leads program depth before (History.Of (.kernel unit.number))
      (seated base (working unit interconnect work))

section Inputs

variable {done later : List InputBuffer} {size : Depth} {younger : List Slot}

/-- A kernel can go on by retiring the marker in front of an input. -/
theorem Reaches.marker (work : Workspace) (fitted : unit.Fitted depth)
    (inputs : work.buffers.inputs = done ++ ⟨size, .marker :: younger⟩ :: later)
    (reaches : Reaches program depth.value before base unit interconnect work) :
    Reaches program depth.value before base unit interconnect
      { work with
        buffers := { work.buffers with inputs := done ++ ⟨size, younger⟩ :: later } } := by
  obtain ⟨keeps, leads⟩ := reaches
  have retires := Bank.retires_front inputs (fitted.of_reset_eq keeps).inputs_length_le
  obtain ⟨shape, kind⟩ := resembles_working_iff.mp keeps
  exact ⟨resembles_working_iff.mpr ⟨retires.clear.trans shape, kind⟩,
    leads.step (clear_step retires) rfl rfl⟩

/-- The kernel of the control unit can go on by collecting the value in front of an input. -/
theorem Reaches.collected (work : Workspace) {slot : Slot} {value : Word}
    (fitted : unit.Fitted depth)
    (control : work.kernel = .control) (holds : slot.value? = some value)
    (inputs : work.buffers.inputs = done ++ ⟨size, slot :: younger⟩ :: later)
    (reaches : Reaches program depth.value before base unit interconnect work) :
    Reaches program depth.value before base unit interconnect
      { work with
        buffers := { work.buffers with inputs := done ++ ⟨size, younger⟩ :: later }
        results := work.results ++ [value] } := by
  obtain ⟨keeps, leads⟩ := reaches
  have fits := fitted.of_reset_eq keeps
  have retires := Bank.retires_front inputs fits.inputs_length_le
  obtain ⟨shape, kind⟩ := resembles_working_iff.mp keeps
  obtain ⟨kernel, buffers, memory, results⟩ := work
  subst control
  have happens := leads.step (fire_step [(_, slot)] [value] ⟨.control, memory, none, some value⟩
    fits (.collect _) (by simp [Kernel.produces]) (by simp [holds]) retires rfl
    (Bank.Emits.nothing _)) rfl rfl
  refine ⟨resembles_working_iff.mpr ⟨retires.clear.trans shape, kind⟩, ?_⟩
  simpa using happens

end Inputs

/-- Retiring all markers in front is explained by clearing them one by one. -/
theorem dropMarkers_explained (work : Workspace) (fitted : unit.Fitted depth)
    (reaches : Reaches program depth.value before base unit interconnect work) :
    Explained program depth.value before (History.Of (.kernel unit.number))
      (seated base ∘ working unit interconnect) (unit.Resembles ∘ working unit interconnect)
      (Kernel.dropMarkers work) := by
  let reached (inputs : List InputBuffer) (_ : List Word) : Prop :=
    Reaches program depth.value before base unit interconnect
      { work with buffers := { work.buffers with inputs } }
  have one (done : List InputBuffer) (item : InputBuffer) (later : List InputBuffer)
      (got : List Word) (before : reached (done ++ item :: later) got) :
      reached (done ++ item.dropMarkers :: later) (got ++ []) := by
    obtain ⟨size, slots⟩ := item
    induction slots with
    | nil => exact before
    | cons slot younger ih =>
      cases slot with
      | marker =>
        exact ih (Reaches.marker
          { work with
            buffers := { work.buffers with inputs := done ++ ⟨size, .marker :: younger⟩ :: later } }
          fitted rfl before)
      | awaiting | arrived | constant => exact before
  obtain ⟨keeps, leads⟩ :=
    sweep (fun item => ([], InputBuffer.dropMarkers item)) one work.buffers.inputs reaches
  rw [Kernel.dropMarkers]
  split
  · exact leads.explained keeps true
  · exact reaches.2.explained reaches.1 false

/-- The collecting of the control unit is explained by firings for the single values. -/
theorem collect_explained (fitted : unit.Fitted depth) (control : work.kernel = .control)
    (reaches : Reaches program depth.value before base unit interconnect work) :
    Explained program depth.value before (History.Of (.kernel unit.number))
      (seated base ∘ working unit interconnect) (unit.Resembles ∘ working unit interconnect)
      (Kernel.collect work) := by
  let reached (inputs : List InputBuffer) (got : List Word) : Prop :=
    Reaches program depth.value before base unit interconnect
      { work with buffers := { work.buffers with inputs }, results := work.results ++ got }
  have one (done : List InputBuffer) (item : InputBuffer) (later : List InputBuffer)
      (got : List Word) (before : reached (done ++ item :: later) got) :
      reached (done ++ item.popAll.2 :: later) (got ++ item.popAll.1) := by
    obtain ⟨size, slots⟩ := item
    induction slots generalizing got with
    | nil => simpa [InputBuffer.popAll, InputBuffer.leadingValues] using before
    | cons slot younger ih =>
      cases held : slot.value? with
      | none => simpa [InputBuffer.popAll, InputBuffer.leadingValues, held] using before
      | some value =>
        have after := Reaches.collected
          { work with
            buffers := { work.buffers with inputs := done ++ ⟨size, slot :: younger⟩ :: later }
            results := work.results ++ got }
          fitted control held rfl before
        have gathered : work.results ++ got ++ [value] = work.results ++ (got ++ [value]) := by
          apply Array.ext'
          simp
        rw [gathered] at after
        have rest := ih (got ++ [value]) after
        simpa [InputBuffer.popAll, InputBuffer.leadingValues, held] using rest
  have before : reached work.buffers.inputs [] := by simpa [reached] using reaches
  obtain ⟨keeps, leads⟩ := sweep InputBuffer.popAll one work.buffers.inputs before
  rw [Kernel.collect]
  split
  · refine Leads.explained ?_ ?_ true
    · simpa [List.flatMap_map, Function.comp_def] using keeps
    · simpa [List.flatMap_map, Function.comp_def] using leads
  · exact reaches.2.explained reaches.1 false

/-- Handling an element of work is explained by firings. -/
theorem perform_explained (fitted : unit.Fitted depth)
    (keeps : unit.Resembles (working unit interconnect work)) :
    Explained program depth.value (seated base (working unit interconnect work))
      (History.Of (.kernel unit.number)) (seated base ∘ working unit interconnect)
      (unit.Resembles ∘ working unit interconnect) (Kernel.perform unit.number work) := by
  by_cases control : work.kernel = .control
  · have collects : Kernel.perform unit.number work = Kernel.collect work := by
      simp only [Kernel.perform, control]
    rw [collects]
    exact collect_explained fitted control ⟨keeps, .here _ _⟩
  · cases needs : work.kernel.needsMicroOp with
    | true =>
      rw [Kernel.perform_of_needsMicroOp unit.number needs]
      exact Explained.idle keeps false
    | false =>
      exact explained_of_outcome fitted keeps (Kernel.perform_outcome unit.number needs control)

/-- Taking the next micro-op is explained by a firing. -/
theorem fetch_explained (fitted : unit.Fitted depth)
    (keeps : unit.Resembles (working unit interconnect work)) :
    Explained program depth.value (seated base (working unit interconnect work))
      (History.Of (.kernel unit.number)) (seated base ∘ working unit interconnect)
      (unit.Resembles ∘ working unit interconnect) (Kernel.fetch unit.number work) := by
  cases needs : work.kernel.needsMicroOp with
  | true => exact explained_of_outcome fitted keeps (Kernel.fetch_outcome unit.number needs)
  | false =>
    rw [Kernel.fetch_of_supplied unit.number needs]
    exact Explained.idle keeps false

/-- A step of the kernel is explained by its events. -/
theorem stepKernel_explained {shared : Shared} (fitted : unit.Fitted depth) :
    Explained program depth.value (base.seat unit shared) (History.Of (.kernel unit.number))
      (seated base) unit.Resembles (stepKernel (unit, shared)) := by
  obtain ⟨memory, results, interconnect⟩ := shared
  let work : Workspace := ⟨unit.kernel, unit.buffers, memory, results⟩
  have here : Reaches program depth.value (seated base (working unit interconnect work)) base unit
      interconnect work := ⟨rfl, .here _ _⟩
  have markers := dropMarkers_explained work fitted here
  exact ((markers.andThenOf (fetch_explained fitted)).andThenOf (perform_explained fitted)).map

end ProcessingUnit
end MoveMachine
