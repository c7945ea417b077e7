import MoveMachine.Proofs.Kernel.Steps

/-!
# The run of a kernel

Whatever happens around a kernel, as long as no step ends in a fault, what it has come to
is the outcome of a sequence of firings that start from its first state and are fed with
the values consumed, in order, and the values pushed are those emitted
(`Workspace.Evolves.traces`). A step that ends in a fault is one more such firing, which
fails (`Workspace.Balanced.breaks`). What holds of every sequence of firings therefore
holds of the unit, and to show it one need not know of slots, markers or steps
(`Kernel.Reaches`).
-/

set_option autoImplicit false

namespace MoveMachine

namespace Bank

theorem firstOperand_ne_opcodes : firstOperand ≠ opcodes := by decide

theorem secondOperand_ne_opcodes : secondOperand ≠ opcodes := by decide

end Bank

/-! ## Sequences of firings -/

namespace Kernel

variable {unit : UInt8}

/-- What a kernel has taken and given since its start, and what it has come to. -/
structure Progress where
  kernel : Kernel
  memory : Memory
  /-- The values taken from each input. -/
  consumed : UInt8 → List Word
  /-- The values given to the output. -/
  pushed : List Word

namespace Progress

/-- The values taken from each input once those of one more firing are. -/
def fed (progress : Progress) (ports : List UInt8) (words : List Word) (input : UInt8) :
    List Word :=
  progress.consumed input ++ Bank.wordsFor ports words input

theorem fed_one (progress : Progress) (port : UInt8) (word : Word) :
    progress.fed [port] [word] =
      Function.update progress.consumed port (progress.consumed port ++ [word]) := by
  funext input
  rw [Function.update_apply]
  by_cases here : input = port
  · simp [fed, Bank.wordsFor, here]
  · simp [fed, Bank.wordsFor, here, Ne.symm here]

/-- The other inputs are left alone. -/
theorem fed_of_not_mem (progress : Progress) {ports : List UInt8} (words : List Word)
    {input : UInt8} (elsewhere : input ∉ ports) :
    progress.fed ports words input = progress.consumed input := by
  have none : (ports.zip words).filter (·.1 = input) = [] := by
    rw [List.filter_eq_nil_iff]
    intro entry member isInput
    apply elsewhere
    rw [← of_decide_eq_true isInput]
    exact (List.of_mem_zip member).1
  rw [fed, Bank.wordsFor, none, List.map_nil, List.append_nil]

/-- What a kernel has come to with one more firing. -/
def fire (progress : Progress) (ports : List UInt8) (words : List Word) (reaction : Reaction) :
    Progress where
  kernel := reaction.kernel
  memory := reaction.memory
  consumed := progress.fed ports words
  pushed := progress.pushed ++ reaction.emitted.toList

end Progress

/-- A kernel fires once more. -/
inductive Advances (unit : UInt8) (progress : Progress) : Progress → Prop where
  | intro {ports : List UInt8} {words : List Word} {reaction : Reaction}
      (awaits : progress.kernel.Awaits ports) (supplied : words.length = ports.length)
      (reacts : progress.kernel.react unit progress.memory words = .ok reaction) :
      Advances unit progress (progress.fire ports words reaction)

/-- What a kernel can come to by firing. If the memory is disturbed, others write to it between the
firings. -/
inductive Reaches (unit : UInt8) (disturbed : Prop) (kernel : Kernel) (memory : Memory) :
    Progress → Prop where
  | start : Reaches unit disturbed kernel memory ⟨kernel, memory, fun _ => [], []⟩
  | fire {progress next : Progress} (earlier : Reaches unit disturbed kernel memory progress)
      (advances : Advances unit progress next) : Reaches unit disturbed kernel memory next
  | disturb {progress : Progress} {other : Memory}
      (earlier : Reaches unit disturbed kernel memory progress) (isDisturbed : disturbed)
      (size : other.size = progress.memory.size) :
      Reaches unit disturbed kernel memory { progress with memory := other }

/-- What a kernel handles the next element of work from, when a micro-op is there. -/
def Progress.Prepares (unit : UInt8) (progress next : Progress) : Prop :=
  next = progress ∨ progress.kernel.needsMicroOp = true ∧ Advances unit progress next ∧
    next.kernel.needsMicroOp = false

/-- A kernel's next firing fails, be it that it fetches a micro-op before that or not. -/
inductive Breaks (unit : UInt8) (fault : Fault) (progress : Progress) : Progress → Prop where
  | intro {next : Progress} {ports : List UInt8} {words : List Word}
      (prepares : progress.Prepares unit next)
      (awaits : next.kernel.Awaits ports) (supplied : words.length = ports.length)
      (reacts : next.kernel.react unit next.memory words = .error fault) :
      Breaks unit fault progress { next with consumed := next.fed ports words }

variable {disturbed : Prop} {kernel : Kernel} {memory : Memory} {progress : Progress}

/-- A micro-op that is fetched is one more value of its input. Nothing else is taken or given. -/
theorem Advances.fetches {next : Progress} (advances : Advances unit progress next)
    (needs : progress.kernel.needsMicroOp = true) :
    ∃ word, next.consumed = Function.update progress.consumed Bank.opcodes
        (progress.consumed Bank.opcodes ++ [word]) ∧
      next.pushed = progress.pushed ∧ next.memory = progress.memory := by
  cases advances with
  | @intro ports words reaction awaits supplied reacts =>
    obtain rfl := awaits.eq_opcodes needs
    obtain ⟨word, rfl⟩ := List.length_eq_one_iff.mp supplied
    obtain ⟨memory, emitted, -⟩ := react_of_needsMicroOp needs reacts
    refine ⟨word, progress.fed_one Bank.opcodes word, ?_, memory⟩
    rw [Progress.fire, emitted, Option.toList_none, List.append_nil]

/-- What holds now, and with one more firing, holds when a micro-op is there. -/
theorem Progress.Prepares.keeps {next : Progress} (prepares : progress.Prepares unit next)
    (holds : Progress → Prop) (now : holds progress)
    (soon : Advances unit progress next → holds next) : holds next := by
  rcases prepares with rfl | ⟨-, advances, -⟩
  · exact now
  · exact soon advances

/-- What fetching a micro-op leaves alone, if one is fetched. -/
structure Progress.Prepared (progress next : Progress) : Prop where
  memory : next.memory = progress.memory
  pushed : next.pushed = progress.pushed
  operands : ∀ input, input ≠ Bank.opcodes → next.consumed input = progress.consumed input
  opcodes : progress.consumed Bank.opcodes <+: next.consumed Bank.opcodes
  /-- If a micro-op is still needed, none was fetched. -/
  unfetched : next.kernel.needsMicroOp = true → next = progress

theorem Progress.Prepares.spec {next : Progress} (prepares : progress.Prepares unit next) :
    progress.Prepared next := by
  rcases prepares with rfl | ⟨needs, advances, supplied⟩
  · exact ⟨rfl, rfl, fun _ _ => rfl, List.prefix_rfl, fun _ => rfl⟩
  · obtain ⟨word, consumed, pushed, memory⟩ := advances.fetches needs
    refine ⟨memory, pushed, ?_, ?_, ?_⟩
    · intro input elsewhere
      rw [consumed, Function.update_of_ne elsewhere]
    · rw [consumed, Function.update_self]
      exact List.prefix_append _ _
    · intro stillNeeds
      rw [supplied] at stillNeeds
      cases stillNeeds

/-- A kernel stays of its kind. -/
theorem Reaches.type (reaches : Reaches unit disturbed kernel memory progress) :
    progress.kernel.type = kernel.type := by
  induction reaches with
  | start => rfl
  | fire earlier advances ih =>
    cases advances with
    | intro awaits supplied reacts =>
      rw [← ih, ← type_reset, Progress.fire, (allows_of_react reacts).shape, type_reset]
  | disturb earlier isDisturbed size ih => exact ih

theorem Reaches.notControl (reaches : Reaches unit disturbed kernel memory progress)
    (notControl : kernel ≠ .control) : progress.kernel ≠ .control := by
  intro isControl
  apply notControl
  apply eq_control_of_type
  rw [← reaches.type, isControl]
  rfl

end Kernel

/-! ## Histories -/

namespace Workspace

variable {unit : UInt8} {disturbed : Prop} {kernel : Kernel} {memory : Memory}
  {history : History} {work after : Workspace} {fault : Fault}

/-- What a kernel has come to in a history, as far as it can be seen from outside. -/
def History.progress (history : History) (work : Workspace) : Kernel.Progress where
  kernel := work.kernel
  memory := work.memory
  consumed := history.consumed work.buffers
  pushed := history.pushed work.buffers

/-- Markers do not matter to what a kernel has come to. -/
theorem Balanced.cleared (balanced : Balanced history work.buffers) :
    Balanced history (Kernel.cleared work).buffers ∧
      history.progress (Kernel.cleared work) = history.progress work := by
  obtain ⟨balancedThen, same⟩ := balanced.yields work.buffers.yields_dropMarkers
  refine ⟨balancedThen, ?_⟩
  have consumedSame :
      history.consumed work.buffers.dropMarkers = history.consumed work.buffers := by
    funext input
    rw [same, List.append_nil]
  rw [History.progress, History.progress, Kernel.cleared, consumedSame]
  rfl

/-- A firing that happens is one that a kernel can come to. -/
theorem Balanced.fires (balanced : Balanced history work.buffers)
    (fires : Kernel.Fires unit work after) :
    Balanced history after.buffers ∧
      Kernel.Advances unit (history.progress work) (history.progress after) := by
  cases fires with
  | @intro ports words reaction bank awaits room supplied reacts yields values destinations =>
    obtain ⟨balancedThen, grows⟩ := balanced.yields yields
    refine ⟨balancedThen, ?_⟩
    have consumed : history.consumed bank = (history.progress work).fed ports words := by
      funext input
      exact grows input
    have pushed : history.pushed bank = history.pushed work.buffers ++ reaction.emitted.toList := by
      rw [History.pushed, History.pushed, values, Function.update_self, List.append_assoc]
    have reached : history.progress ⟨reaction.kernel, bank, reaction.memory,
        work.results ++ reaction.collected.toArray⟩ =
          (history.progress work).fire ports words reaction := by
      simp only [History.progress, consumed, pushed]
      rfl
    rw [reached]
    exact .intro awaits supplied reacts

/-- What a kernel comes to in a step that ends in a fault. -/
theorem Balanced.breaks (balanced : Balanced history work.buffers)
    (notControl : work.kernel ≠ .control) (faults : (Kernel.step unit work).report = .error fault) :
    Balanced history (Kernel.step unit work).state.buffers ∧
      Kernel.Breaks unit fault (history.progress work)
        (history.progress (Kernel.step unit work).state) := by
  have spec := Kernel.step_spec unit notControl
  rw [Stepped.Ends, faults] at spec
  obtain ⟨middle, prepares, fails⟩ := spec
  obtain ⟨balancedCleared, progressSame⟩ := balanced.cleared
  have prepared : Balanced history middle.buffers ∧
      (history.progress work).Prepares unit (history.progress middle) := by
    rcases prepares with rfl | ⟨⟨needs, fires⟩, supplied⟩
    · exact ⟨balancedCleared, .inl progressSame⟩
    · obtain ⟨balancedThen, advances⟩ := balancedCleared.fires fires
      rw [progressSame] at advances
      exact ⟨balancedThen, .inr ⟨needs, advances, supplied⟩⟩
  generalize (Kernel.step unit work).state = last at fails ⊢
  cases fails with
  | @intro ports words bank _ awaits room supplied reacts yields outputs =>
    obtain ⟨balancedThen, grows⟩ := prepared.1.yields yields
    refine ⟨balancedThen, ?_⟩
    have consumed : history.consumed bank = (history.progress middle).fed ports words := by
      funext input
      exact grows input
    have pushed : history.pushed bank = history.pushed middle.buffers := by
      rw [History.pushed, History.pushed, Bank.valuesAt_congr outputs]
    have reached : history.progress { middle with buffers := bank } =
        { history.progress middle with consumed := (history.progress middle).fed ports words } := by
      simp only [History.progress, consumed, pushed]
    rw [reached]
    exact .intro prepared.2 awaits supplied reacts

/-- A history accounts for a workspace, and its kernel has come there by firing. -/
structure Traces (unit : UInt8) (disturbed : Prop) (kernel : Kernel) (memory : Memory)
    (history : History) (work : Workspace) : Prop where
  balanced : Balanced history work.buffers
  reaches : Kernel.Reaches unit disturbed kernel memory (history.progress work)

namespace Traces

theorem fire (traces : Traces unit disturbed kernel memory history work)
    (fires : Kernel.Fires unit work after) :
    Traces unit disturbed kernel memory history after := by
  obtain ⟨balanced, advances⟩ := traces.balanced.fires fires
  exact ⟨balanced, traces.reaches.fire advances⟩

theorem cleared (traces : Traces unit disturbed kernel memory history work) :
    Traces unit disturbed kernel memory history (Kernel.cleared work) := by
  obtain ⟨balanced, same⟩ := traces.balanced.cleared
  refine ⟨balanced, ?_⟩
  rw [same]
  exact traces.reaches

/-- A step that succeeds is some firings more. -/
theorem step (notControl : kernel ≠ .control)
    (traces : Traces unit disturbed kernel memory history work) {progressed : Bool}
    (succeeds : (Kernel.step unit work).report = .ok progressed) :
    Traces unit disturbed kernel memory history (Kernel.step unit work).state := by
  have spec := Kernel.step_spec unit (traces.reaches.notControl notControl)
  rw [Stepped.Ends, succeeds] at spec
  obtain ⟨middle, fetched, last⟩ := spec
  have before : Traces unit disturbed kernel memory history middle := by
    rcases fetched with rfl | ⟨-, fires⟩
    · exact traces.cleared
    · exact traces.cleared.fire fires
  rcases last with same | fires
  · rw [same]
    exact before
  · exact before.fire fires

/-- The event of a step itself says nothing about what the kernel has come to. -/
theorem append_step (traces : Traces unit disturbed kernel memory history work)
    (report : Except Fault Bool) :
    Traces unit disturbed kernel memory (history ++ [.step report]) work := by
  obtain ⟨balanced, consumed⟩ := traces.balanced.step report
  refine ⟨balanced, ?_⟩
  have pushed : History.pushed (history ++ [.step report]) work.buffers =
      history.pushed work.buffers := history.pushed_append rfl rfl
  rw [History.progress, consumed, pushed]
  exact traces.reaches

end Traces

/-- The memory changes in a step of the kernel, or elsewhere. -/
theorem Happens.memory_eq {event : Event} (happens : Happens unit work event after)
    (noStep : ∀ report, event ≠ .step report) :
    after.memory = work.memory ∨
      event = .elsewhere ∧ after.memory.size = work.memory.size := by
  cases happens with
  | step => exact absurd rfl (noStep _)
  | apply | arrive | leave => exact .inl rfl
  | elsewhere size => exact .inr ⟨rfl, size⟩

/-- What happens between the steps does not matter to what the kernel has come to, unless it
disturbs the memory. -/
theorem Traces.append {event : Event} (traces : Traces unit disturbed kernel memory history work)
    (happens : Happens unit work event after) (noStep : ∀ report, event ≠ .step report)
    (disturbs : event = .elsewhere → disturbed) :
    Traces unit disturbed kernel memory (history ++ [event]) after := by
  obtain ⟨⟨balanced, consumed⟩, pushed, sameKernel⟩ := happens.balanced noStep traces.balanced
  have progress : History.progress (history ++ [event]) after =
      { history.progress work with memory := after.memory } := by
    rw [History.progress, consumed, pushed, sameKernel]
    rfl
  refine ⟨balanced, ?_⟩
  rw [progress]
  rcases happens.memory_eq noStep with same | ⟨elsewhere, size⟩
  · rw [same]
    exact traces.reaches
  · exact traces.reaches.disturb (disturbs elsewhere) size

theorem balanced_start {start : Workspace} (noSlots : ∀ input, start.buffers.slotsAt input = []) :
    Balanced [] start.buffers where
  served _ _ := Nat.zero_le _
  window input := ⟨[], (noSlots input).symm, nofun⟩

/-- As long as no step ends in a fault, a kernel comes to what a sequence of firings makes of the
values that it consumes. -/
theorem Evolves.traces {start : Workspace} (evolves : Evolves unit start history work)
    (notControl : start.kernel ≠ .control)
    (noSlots : ∀ input, start.buffers.slotsAt input = [])
    (noValues : start.buffers.valuesAt Bank.result = []) (faultless : history.Faultless)
    (disturbs : ¬history.Undisturbed → disturbed) :
    Traces unit disturbed start.kernel start.memory history work := by
  induction evolves with
  | start =>
    refine ⟨balanced_start noSlots, ?_⟩
    have pushed : History.pushed [] start.buffers = [] := noValues
    have consumed : History.consumed [] start.buffers = fun _ => [] := by
      funext input
      have retired : History.retired [] start.buffers input = [] := List.take_nil
      rw [History.consumed, retired]
      rfl
    rw [History.progress, pushed, consumed]
    exact .start
  | @next history work after event earlier happens ih =>
    have before := ih faultless.of_append
      (fun disturbedBefore => disturbs fun undisturbed => disturbedBefore undisturbed.of_append)
    by_cases isStep : ∃ report, event = .step report
    · obtain ⟨report, rfl⟩ := isStep
      cases happens with
      | step =>
        cases reported : (Kernel.step unit work).report with
        | error fault =>
          rw [reported] at faultless
          exact absurd (List.mem_append_right history List.mem_cons_self) (faultless fault)
        | ok progressed => exact (before.step notControl reported).append_step _
    · apply before.append happens
      · rintro report rfl
        exact isStep ⟨report, rfl⟩
      · rintro rfl
        apply disturbs
        intro undisturbed
        exact undisturbed (List.mem_append_right history List.mem_cons_self)

end Workspace
end MoveMachine
