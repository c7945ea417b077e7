import MoveMachine.Proofs.Network.Account

/-!
# Kernels in the network

Kernels change only by what they react to, and a reaction does not change what a
kernel is set back to (`Network.Evolves.kernel_reset`); so a kernel stays of its
kind. Only the kernel of the control unit collects: the results are the values
that left its inputs, in the order in which they left (`Network.Evolves.results`).
-/

set_option autoImplicit false

namespace MoveMachine

namespace Network

variable {program : List Instruction} {depth : Nat} {start network after : Network}
  {history : History} {event : Event}

/-- What a kernel is set back to stays the same. -/
theorem Step.kernel_reset (happens : Step program depth network event after) (unit : UInt8) :
    (after.kernel unit).map Kernel.reset = (network.kernel unit).map Kernel.reset := by
  cases happens with
  | @fire here kernel taken words reaction present awaits room heads holds reacts =>
    by_cases same : unit = here
    · subst same
      simp [present, (Kernel.allows_of_react reacts).shape]
    · simp [same]
  | issue | halt | fetch | openSlot | direct | clear | fail | send | arrive | write => rfl

theorem Evolves.kernel_reset (evolves : Evolves program depth start history network)
    (unit : UInt8) :
    (network.kernel unit).map Kernel.reset = (start.kernel unit).map Kernel.reset := by
  induction evolves with
  | start => rfl
  | step _ happens ih => exact (happens.kernel_reset unit).trans ih

/-- Memory keeps its size. -/
theorem Step.memory_size (happens : Step program depth network event after) :
    after.shared.memory.size = network.shared.memory.size := by
  cases happens with
  | fire present awaits room heads holds reacts => exact (Kernel.allows_of_react reacts).size
  | write size => exact size
  | issue | halt | fetch | openSlot | direct | clear | fail | send | arrive => rfl

theorem Evolves.memory_size (evolves : Evolves program depth start history network) :
    network.shared.memory.size = start.shared.memory.size := by
  induction evolves with
  | start => rfl
  | step _ happens ih => exact happens.memory_size.trans ih

/-- A kernel stays of its kind. -/
theorem Evolves.exists_kernel (evolves : Evolves program depth start history network)
    {unit : UInt8} {kernel : Kernel} (present : network.kernel unit = some kernel) :
    ∃ original, start.kernel unit = some original ∧ kernel.reset = original.reset ∧
      kernel.type = original.type := by
  have resets := evolves.kernel_reset unit
  rw [present] at resets
  obtain ⟨original, found, same⟩ := Option.map_eq_some_iff.mp resets.symm
  refine ⟨original, found, same.symm, ?_⟩
  rw [← Kernel.type_reset, ← same, Kernel.type_reset]

/-- Whether a number is that of the only control unit there can be. -/
def SoleControl (network : Network) (control : UInt8) : Prop :=
  ∀ unit kernel, network.kernel unit = some kernel → (kernel.type = .control ↔ unit = control)

/-- The results are what left the inputs of the control unit. -/
theorem Evolves.results {control : UInt8} (blank : start.Blank) (sole : start.SoleControl control)
    (evolves : Evolves program depth start history network) :
    network.shared.results.toList = history.leavingUnit control := by
  induction evolves with
  | start => simp [blank.results, History.leavingUnit, History.retired]
  | @step history network after event earlier happens ih =>
    have elsewhere {unit : UInt8} (taken : List (UInt8 × Slot)) (apart : unit ≠ control) :
        (taken.map fun entry => ((⟨unit, entry.1⟩ : Address), entry.2)).filter
          (·.1.unit = control) = [] := by
      refine List.filter_eq_nil_iff.mpr fun entry member => ?_
      obtain ⟨port, -, rfl⟩ := List.mem_map.mp member
      simpa using apart
    cases happens with
    | @fire unit kernel taken words reaction present awaits room heads holds reacts =>
      obtain ⟨original, found, -, type⟩ := earlier.exists_kernel present
      have isControl := sole unit original found
      rw [← type] at isControl
      by_cases here : unit = control
      · obtain rfl := Kernel.eq_control_of_type (isControl.mpr here)
        subst here
        obtain rfl := Except.ok.inj reacts
        generalize isPorts : taken.map (·.1) = ports at awaits
        cases awaits with
        | collect port =>
          obtain ⟨entry, rfl, rfl⟩ := List.map_eq_singleton_iff.mp isPorts
          obtain ⟨word, rfl, value⟩ := List.map_eq_singleton_iff.mp holds.symm
          simp [ih, History.leavingUnit, ← value]
      · have nothing := (Kernel.allows_of_react reacts).collects (mt isControl.mp here)
        simp [ih, nothing, History.leavingUnit, elsewhere _ here]
    | @fail unit kernel taken words fault present awaits room heads holds reacts =>
      obtain ⟨original, found, -, type⟩ := earlier.exists_kernel present
      have isControl := sole unit original found
      rw [← type] at isControl
      have here : unit ≠ control := by
        intro same
        obtain rfl := Kernel.eq_control_of_type (isControl.mpr same)
        cases reacts
      simp [ih, History.leavingUnit, elsewhere _ here]
    | @clear input younger front =>
      by_cases here : input.unit = control <;>
        simp [ih, History.leavingUnit, here, Slot.value?]
    | issue | halt | fetch | openSlot | direct | send | arrive | write =>
      simpa [History.leavingUnit] using ih

end Network
end MoveMachine
