import MoveMachine.Proofs.Machine.Session

/-!
# Flow control

Every queue of the machine is asked whether it has room before anything is put
into it, each by another component. The rules of the network carry these
questions as guards, so every event leaves every queue within its bound
(`Network.Step.bounded`), a failure of a kernel in the middle of a round
included.

A machine therefore never breaks its own protocol
(`Machine.flow_control_holds`): in a session of loading programs, writing to
memory and running in any order, a run ends in no other fault than those of
kernels, no manager holds an instruction that is not for it, and every queue is
within its bound.
-/

set_option autoImplicit false

namespace MoveMachine

namespace Network

/-- Whether all queues of a network are within their bounds. -/
structure Bounded (depth : Nat) (network : Network) : Prop where
  slots : ∀ input, (network.slots input).length ≤ depth
  values : ∀ output, (network.values output).length ≤ depth
  destinations : ∀ output, (network.destinations output).length ≤ depth
  inbox : ∀ post, (network.inbox post).length ≤ depth
  inFlight : network.shared.interconnect.inFlight.length ≤ network.shared.interconnect.capacity

variable {program : List Instruction} {depth : Nat} {start network after : Network}
  {history : History} {event : Event}

theorem Blank.bounded (blank : network.Blank) : network.Bounded depth where
  slots := by simp [blank.slots]
  values := by simp [blank.values]
  destinations := by simp [blank.destinations]
  inbox := by simp [blank.inbox]
  inFlight := by simp [blank.inFlight]

/-- A bound on all queues of a kind stays when one of them is changed within the bound. -/
theorem length_update_le {Place Item : Type} [DecidableEq Place] {queues : Place → List Item}
    {here : Place} {queue : List Item} (before : ∀ place, (queues place).length ≤ depth)
    (now : queue.length ≤ depth) (place : Place) :
    (Function.update queues here queue place).length ≤ depth := by
  rw [Function.update_apply]
  split
  · exact now
  · exact before place

/-- Taking slots out of inputs makes no input longer. -/
theorem length_retire_le (network : Network) (unit : UInt8) (ports : List UInt8) (input : Address) :
    (network.retire unit ports input).length ≤ (network.slots input).length := by
  rw [retire]
  split
  · simp
  · exact Nat.le_refl _

/-- Every event leaves every queue within its bound. -/
theorem Step.bounded (bounded : network.Bounded depth)
    (happens : Step program depth network event after) : after.Bounded depth := by
  cases happens with
  | @issue instruction running next room =>
    refine { bounded with inbox := fun post => ?_ }
    show (if instruction.concerns post then network.inbox post ++ [instruction]
      else network.inbox post).length ≤ depth
    split
    · rename_i concerned
      rw [List.length_append]
      exact room post concerned
    · exact bounded.inbox post
  | halt | write => exact { bounded with }
  | @fetch post instruction later free waiting =>
    have before := bounded.inbox post
    rw [waiting, List.length_cons] at before
    exact { bounded with inbox := length_update_le bounded.inbox (by omega) }
  | openSlot holds own goes room =>
    refine { bounded with slots := length_update_le bounded.slots ?_ }
    rw [List.length_append]
    exact room
  | direct holds own comes room =>
    refine { bounded with destinations := length_update_le bounded.destinations ?_ }
    rw [List.length_append]
    exact room
  | @clear input younger front =>
    have before := bounded.slots input
    rw [front, List.length_cons] at before
    exact { bounded with slots := length_update_le bounded.slots (by omega) }
  | @fire unit kernel taken words reaction present awaits room heads holds reacts =>
    refine { bounded with
      slots := fun input =>
        Nat.le_trans (length_retire_le network unit _ input) (bounded.slots input)
      values := length_update_le bounded.values ?_ }
    have emits := (Kernel.allows_of_react reacts).emits
    have before := bounded.values ⟨unit, Bank.result⟩
    rw [List.length_append]
    cases emitted : reaction.emitted with
    | none => simpa using before
    | some value =>
      rw [emitted, Option.isSome_some] at emits
      exact room emits.symm
  | @fail unit kernel taken =>
    exact { bounded with
      slots := fun input =>
        Nat.le_trans (length_retire_le network unit _ input) (bounded.slots input) }
  | @send output destination value values destinations interconnect first tag accepts sends =>
    have valuesBefore := bounded.values output
    have destinationsBefore := bounded.destinations output
    rw [first, List.length_cons] at valuesBefore
    rw [tag, List.length_cons] at destinationsBefore
    refine { bounded with
      values := length_update_le bounded.values (by omega)
      destinations := length_update_le bounded.destinations (by omega)
      inFlight := ?_ }
    rcases Interconnect.send_cases sends with ⟨-, rfl⟩ | ⟨-, -, rfl⟩
    · exact bounded.inFlight
    · rw [List.length_append]
      exact of_decide_eq_true accepts
  | @arrive packet before later filled flying first fills =>
    refine { bounded with
      slots := length_update_le bounded.slots ?_
      inFlight := ?_ }
    · obtain ⟨older, younger, slots, -, rfl⟩ := InputBuffer.fillOldest_eq_some fills
      have known := bounded.slots packet.destination
      rw [slots] at known
      simpa using known
    · have known := bounded.inFlight
      rw [flying] at known
      simp only [List.length_append, List.length_cons] at known ⊢
      omega

theorem Evolves.bounded (blank : start.Blank)
    (evolves : Evolves program depth start history network) : network.Bounded depth := by
  induction evolves with
  | start => exact blank.bounded
  | step _ happens ih => exact happens.bounded ih

end Network

/-- Whether every instruction that a manager holds is for it. -/
def Manager.Routed (manager : Manager) : Prop :=
  ∀ instruction ∈ manager.pending.toList ++ manager.inbox,
    (Effect.of? manager.side manager.unit instruction).isSome = true

namespace Machine

open Network

/-- Whether all queues of a machine are within their bounds, when there are so many units and
buffers have a depth. -/
structure Bounded (count depth : Nat) (machine : Machine) : Prop where
  slots : ∀ unit ∈ machine.units, ∀ input ∈ unit.buffers.inputs, input.slots.length ≤ depth
  values : ∀ unit ∈ machine.units, ∀ output ∈ unit.buffers.outputs, output.values.length ≤ depth
  destinations : ∀ unit ∈ machine.units, ∀ output ∈ unit.buffers.outputs,
    output.destinations.length ≤ depth
  inbox : ∀ unit ∈ machine.units, ∀ side, (unit.manager side).inbox.length ≤ depth
  inFlight : machine.shared.interconnect.inFlight.length ≤ count * depth

/-- An item of a short list is found by an index. -/
theorem exists_index {Item : Type} {items : List Item} {item : Item} (member : item ∈ items)
    (few : items.length ≤ 256) : ∃ index : UInt8, items[index.toNat]? = some item := by
  obtain ⟨done, later, rfl⟩ := List.append_of_mem member
  refine ⟨UInt8.ofNat done.length, ?_⟩
  rw [toNat_place few]
  simp

theorem Follows.bounded {topology : Topology} {machine : Machine}
    (follows : machine.Follows topology)
    (bounded : machine.network.Bounded topology.depth.value) :
    machine.Bounded topology.units.size topology.depth.value := by
  have seated {unit : ProcessingUnit} (member : unit ∈ machine.units) :
      unitNumbered? machine.units unit.number = some unit :=
    unitNumbered?_of_mem follows.distinct member
  have fitted {unit : ProcessingUnit} (member : unit ∈ machine.units) :
      unit.Fitted topology.depth := by
    obtain ⟨description, -, isMatch⟩ := follows.description (seated member)
    exact isMatch.fitted
  refine ⟨?_, ?_, ?_, ?_, ?_⟩
  · intro unit member input isInput
    obtain ⟨index, found⟩ := exists_index isInput (fitted member).inputs_length_le
    have bound := bounded.slots ⟨unit.number, index⟩
    simpa [network, seated member, Bank.slotsAt, Bank.input?, found] using bound
  · intro unit member output isOutput
    obtain ⟨index, found⟩ := exists_index isOutput (fitted member).outputs_length_le
    have bound := bounded.values ⟨unit.number, index⟩
    simpa [network, seated member, Bank.valuesAt, Bank.output?, found] using bound
  · intro unit member output isOutput
    obtain ⟨index, found⟩ := exists_index isOutput (fitted member).outputs_length_le
    have bound := bounded.destinations ⟨unit.number, index⟩
    simpa [network, seated member, Bank.destinationsAt, Bank.output?, found] using bound
  · intro unit member side
    have bound := bounded.inbox (unit.number, side)
    simpa [network, seated member] using bound
  · rw [← follows.capacity]
    exact bounded.inFlight

/-- A manager of a machine holds only what is for it. -/
theorem Follows.routed {topology : Topology} {machine : Machine}
    (follows : machine.Follows topology)
    (concerned : ∀ post, ∀ instruction ∈ machine.network.held post,
      instruction.concerns post = true)
    {unit : ProcessingUnit} (member : unit ∈ machine.units) (side : Side) :
    (unit.manager side).Routed := by
  have seated := unitNumbered?_of_mem follows.distinct member
  obtain ⟨description, -, isMatch⟩ := follows.description seated
  intro instruction holds
  rw [isMatch.fitted.side, isMatch.fitted.number]
  refine concerned (unit.number, side) instruction ?_
  simpa [held, network, seated] using holds

/-- Rounds end in no other faults than those of kernels. -/
theorem Fresh.isKernelFault_of_runFrom {topology : Topology} {program : List Instruction}
    {loaded machine : Machine} {fault : Fault} (fresh : Fresh topology program loaded)
    (runs : Runs loaded machine) {done left : Nat}
    (fails : (machine.runFrom done left).2 = .error fault) : fault.isKernelFault = true := by
  induction left generalizing machine done with
  | zero => cases fails
  | succ left ih =>
    obtain ⟨-, events, -, -, sound⟩ := fresh.round_explained runs
    rw [runFrom] at fails
    cases reported : machine.round.report with
    | error cause =>
      rw [reported] at sound fails
      obtain rfl := Except.error.inj fails
      exact sound
    | ok progressed =>
      cases progressed with
      | true =>
        rw [reported] at fails
        exact ih runs.round fails
      | false =>
        rw [reported] at fails
        cases fails

/-- Flow control never breaks the protocol: whatever was loaded, written and run before, a run ends
in no other faults than a missing program and those of kernels, no manager drops an instruction,
and all queues are within their bounds. -/
theorem flow_control_holds {topology : Topology} {config : Config} {built machine : Machine}
    (builds : ofTopology topology config = .ok built) (session : Session built machine) :
    (∀ fault, machine.run.2 = .error fault →
      fault = .noProgram ∨ (∃ unit type opcode, fault = .invalidMicroOp unit type opcode) ∨
        (∃ unit, fault = .divisionByZero unit) ∨
          ∃ unit address size, fault = .memoryOutOfBounds unit address size) ∧
      (∀ unit ∈ machine.units, ∀ side, (unit.manager side).Routed) ∧
        machine.Bounded topology.units.size topology.depth.value := by
  obtain ⟨follows, ⟨none, blank⟩ | ⟨program, loaded, fresh, runs⟩⟩ := session.follows builds
  · refine ⟨?_, fun unit => follows.routed ?_, follows.bounded blank.bounded⟩
    · intro fault fails
      rw [run, isReady, none] at fails
      exact .inl (Except.error.inj fails).symm
    · simp [held, blank.pending, blank.inbox]
  · obtain ⟨-, history, evolves⟩ := fresh.evolves runs
    refine ⟨?_, fun unit => follows.routed ?_, follows.bounded (evolves.bounded fresh.blank)⟩
    · intro fault fails
      rw [run] at fails
      split at fails
      · have kernelFault := fresh.isKernelFault_of_runFrom runs fails
        cases fault with
        | invalidMicroOp unit type opcode => exact .inr (.inl ⟨unit, type, opcode, rfl⟩)
        | divisionByZero unit => exact .inr (.inr (.inl ⟨unit, rfl⟩))
        | memoryOutOfBounds unit address size => exact .inr (.inr (.inr ⟨unit, address, size, rfl⟩))
        | overflow | unmatchedData | unknownBuffer | invalidImage | memoryRange | invalidParameter
        | noControlUnit | multipleControlUnits | noProgram => cases kernelFault
      · exact .inl (Except.error.inj fails).symm
    · exact fun post instruction holds => (evolves.held_mem fresh.blank holds).2

theorem relay_flow_control_holds :
    ∃ built loaded : Machine,
      ofTopology (.relay ⟨1, by decide, by decide⟩) .default = .ok built ∧
      built.load (.ofProgram Instruction.relayed) = .ok loaded ∧
      (∀ fault, loaded.run.1.run.2 = .error fault →
        fault = .noProgram ∨ (∃ unit type opcode, fault = .invalidMicroOp unit type opcode) ∨
          (∃ unit, fault = .divisionByZero unit) ∨
            ∃ unit address size, fault = .memoryOutOfBounds unit address size) ∧
        (∀ unit ∈ loaded.run.1.units, ∀ side, (unit.manager side).Routed) ∧
          loaded.run.1.Bounded 2 1 := by
  obtain ⟨built, loaded, builds, loads, -⟩ := relay_completes (.inl rfl)
  exact ⟨built, loaded, builds, loads,
    flow_control_holds builds ((Session.built.load loads).run builds)⟩

end Machine
end MoveMachine
