import MoveMachine.Proofs.Network.Order

/-!
# Completed networks

A network has completed its program (`Network.Completed`) when everything that
was issued has been applied, nothing is in flight, and nothing can happen any
more. What is left in its buffers is known then. An output keeps destinations or
values but not both, so it has sent as many packets as it had values, up to the
number of moves issued for it (`Network.Completed.length_sentFrom`). A slot that
still awaits its value awaits one that was never produced
(`Network.Completed.length_produced_le`).
-/

set_option autoImplicit false

namespace MoveMachine
namespace Network

/-- Whether no marker can be retired, no kernel can fire, and no packet can be sent. -/
structure Still (depth : Nat) (network : Network) : Prop where
  markers : ∀ input, (network.slots input).head? ≠ some .marker
  kernels : ∀ (unit : UInt8) (kernel : Kernel) (ports : List UInt8),
    network.kernel unit = some kernel → kernel.Awaits ports →
      (kernel.produces = true → (network.values ⟨unit, Bank.result⟩).length < depth) →
        ∃ port ∈ ports, (network.slots ⟨unit, port⟩).head?.bind Slot.value? = none
  outputs : network.shared.interconnect.canSend = true → ∀ output,
    network.values output = [] ∨ network.destinations output = []

/-- Whether the program has come to its end and everything it asked for has been applied, with
nothing left to happen. -/
structure Completed (depth : Nat) (network : Network) : Prop where
  halted : network.halted = true
  held : ∀ post, network.held post = []
  idle : ∀ unit kernel, network.kernel unit = some kernel → kernel.isBusy = false
  inFlight : network.shared.interconnect.inFlight = []
  still : network.Still depth

namespace Completed

variable {depth : Nat} {history : History} {network : Network}

/-- Where destinations wait, no value does. -/
theorem values_eq_nil (completed : network.Completed depth)
    (room : 0 < network.shared.interconnect.capacity) {output : Address}
    (waits : network.destinations output ≠ []) : network.values output = [] := by
  have accepts : network.shared.interconnect.canSend = true := by
    simpa [Interconnect.canSend, completed.inFlight] using room
  exact (completed.still.outputs accepts output).resolve_right waits

/-- All slots have been opened. -/
theorem opened (completed : network.Completed depth) (account : Account history network)
    (input : Address) : history.opened input = history.issued.filter (·.goesTo input) := by
  rw [← account.opened_append, completed.held, List.filter_nil, List.append_nil]

/-- All outputs have been directed. -/
theorem directed (completed : network.Completed depth) (account : Account history network)
    (output : Address) : history.directed output = history.issued.filter (·.comesFrom output) := by
  rw [← account.directed_append, completed.held, List.filter_nil, List.append_nil]

/-- What was sent to an input has arrived there. -/
theorem arrivedOn (completed : network.Completed depth) (account : Account history network)
    (output : Address) {input : Address} (real : input.isNull = false) :
    history.arrivedOn (output, input) =
      (history.sentFrom output).filter (·.destination = input) := by
  rw [account.routes output input real, completed.inFlight, List.filter_nil, List.append_nil]

/-- The moves issued for an output have sent a packet or wait for a value. -/
theorem length_destinations (completed : network.Completed depth)
    (account : Account history network) (output : Address) :
    history.issued.countP (·.comesFrom output) =
      (history.sentFrom output).length + (network.destinations output).length := by
  have tags := congrArg List.length (account.destinations output)
  rwa [completed.directed account, List.length_append, List.length_map, List.length_map,
    ← List.countP_eq_length_filter] at tags

/-- An output has sent as many packets as it had values and moves. -/
theorem length_sentFrom (completed : network.Completed depth) (account : Account history network)
    (room : 0 < network.shared.interconnect.capacity) (output : Address) :
    (history.sentFrom output).length =
      min (history.produced output).length (history.issued.countP (·.comesFrom output)) := by
  have tags := completed.length_destinations account output
  have values := congrArg List.length (account.values output)
  rw [List.length_append, List.length_map] at values
  by_cases waits : network.destinations output = []
  · rw [waits, List.length_nil] at tags
    omega
  · rw [completed.values_eq_nil room waits, List.length_nil] at values
    omega

/-- The packet for an open slot was not sent. -/
theorem length_sentFrom_le (completed : network.Completed depth)
    (account : Account history network) {source input : Address} {index : Nat}
    (issued : history.issued[index]? = some (.move source input)) (real : input.isNull = false)
    (realSource : source.isNull = false)
    (there : (window history network input)[
      (history.issued.take index).countP (·.goesTo input)]? = some (.awaiting source)) :
    (history.sentFrom source).length ≤ (history.issued.take index).countP (·.comesFrom source) := by
  have comes : (Instruction.move source input).comesFrom source = true :=
    Instruction.comesFrom_move_iff.mpr ⟨realSource, rfl⟩
  by_contra sent
  have inside := Nat.lt_of_not_le sent
  -- its packet would have come with the rank of the slot among those of its sender
  have isSent := List.getElem?_eq_getElem inside
  have goesThere : ((history.sentFrom source)[
      (history.issued.take index).countP (·.comesFrom source)]).destination = input :=
    account.destination_of_sent issued comes isSent
  have ranked := getElem?_filter_countP (fun packet => decide (packet.destination = input)) isSent
    (by simpa using goesThere)
  rw [account.countP_sent real (Nat.le_of_lt inside), ← completed.arrivedOn account source real]
    at ranked
  have opened := Nat.le_of_lt (List.getElem?_eq_some_iff.mp there).1
  have waits := getElem?_filter_countP (·.isFrom source) there (by simp)
  obtain ⟨missing, fills⟩ := account.fills source input
  rw [account.countP_window realSource opened, fills, List.getElem?_append_left (by
    rw [List.length_map]
    exact (List.getElem?_eq_some_iff.mp ranked).1), List.getElem?_map, ranked] at waits
  simp at waits

/-- The value for an open slot was never produced, and its destination still waits for it. -/
theorem length_produced_le (completed : network.Completed depth)
    (account : Account history network) (room : 0 < network.shared.interconnect.capacity)
    {source input : Address} {index : Nat}
    (issued : history.issued[index]? = some (.move source input)) (real : input.isNull = false)
    (realSource : source.isNull = false)
    (there : (window history network input)[
      (history.issued.take index).countP (·.goesTo input)]? = some (.awaiting source)) :
    (history.produced source).length ≤ (history.issued.take index).countP (·.comesFrom source) ∧
      network.destinations source ≠ [] := by
  have few := completed.length_sentFrom_le account issued real realSource there
  have ranked := getElem?_filter_countP (·.comesFrom source) issued
    (Instruction.comesFrom_move_iff.mpr ⟨realSource, rfl⟩)
  have inside := (List.getElem?_eq_some_iff.mp ranked).1
  rw [← List.countP_eq_length_filter] at inside
  have sent := completed.length_sentFrom account room source
  have tags := completed.length_destinations account source
  refine ⟨by omega, fun none => ?_⟩
  rw [none, List.length_nil] at tags
  omega

end Completed

end Network
end MoveMachine
