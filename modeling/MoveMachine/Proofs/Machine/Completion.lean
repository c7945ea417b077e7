import MoveMachine.Proofs.Machine.Session
import MoveMachine.Proofs.Machine.Stillness
import MoveMachine.Proofs.Network.Completion

/-!
# Completed runs

A run that is reported complete ended with a round without progress, at the end
of the program, with idle managers and an empty interconnect. What is in the
buffers then is not looked at, but follows: the network is still
(`Network.Still`), because otherwise the last round would have made progress
(`Machine.Fresh.completed_of_run`). The rounds of such a run form a history
without failures.
-/

set_option autoImplicit false

namespace MoveMachine

namespace ProcessingUnit

variable {depth : Depth} {unit : ProcessingUnit}

/-- A kernel that is about to produce a value has an output. -/
theorem Fitted.hasRoom_of_length_lt (fitted : unit.Fitted depth)
    (produces : unit.kernel.produces = true)
    (room : (unit.buffers.valuesAt Bank.result).length < depth.value) :
    unit.buffers.hasRoom = true := by
  have inside : Bank.result.toNat < unit.buffers.outputs.length := by
    rw [fitted.outputs, ← fitted.kernel]
    cases kind : unit.kernel with
    | control | streamIn => simp [kind, Kernel.produces] at produces
    | loadStore | arithmetic | streamOut | reorder => exact Nat.one_pos
  have found : unit.buffers.output? Bank.result = some unit.buffers.outputs[Bank.result.toNat] :=
    List.getElem?_eq_getElem inside
  rw [Bank.valuesAt_of_output? found] at room
  have size := fitted.output? found
  simp only [Bank.hasRoom, found, Option.any_some, OutputBuffer.valuesFull, size]
  simpa using room

end ProcessingUnit

namespace Machine

open Network

variable {topology : Topology} {program : List Instruction} {loaded machine after : Machine}

/-- If all units of a machine are still, its network is. -/
theorem Suits.still (suits : machine.Suits program)
    (still : ∀ unit ∈ machine.units, unit.Still machine.shared) :
    machine.network.Still machine.topology.depth.value := by
  refine ⟨?_, ?_, ?_⟩
  · intro input
    cases found : unitNumbered? machine.units input.unit with
    | none => simp [network, found]
    | some unit =>
      have noMarker := (still unit (List.mem_of_find?_eq_some found)).markers
      cases exists_ : unit.buffers.input? input.buffer with
      | none => simp [network, found, Bank.slotsAt, exists_]
      | some buffer =>
        intro front
        have isFront : buffer.slots.head? = some .marker := by
          simpa [network, found, Bank.slotsAt, exists_] using front
        rw [Bank.hasMarker, List.any_eq_false] at noMarker
        refine noMarker buffer (List.mem_of_getElem? exists_) ?_
        simp [InputBuffer.hasMarker, isFront, Slot.isMarker]
  · intro number kernel ports present awaits room
    obtain ⟨unit, found, rfl⟩ := Option.map_eq_some_iff.mp present
    have member := List.mem_of_find?_eq_some found
    have fitted := suits.fitted unit member
    have blocked := (still unit member).kernel ports awaits
    by_contra missing
    refine blocked ⟨fun produces => ?_, fun port isPort => ?_⟩
    · refine fitted.hasRoom_of_length_lt produces ?_
      simpa [network, found] using room produces
    · have filled : (machine.network.slots ⟨number, port⟩).head?.bind Slot.value? ≠ none :=
        fun nothing => missing ⟨port, isPort, nothing⟩
      cases exists_ : unit.buffers.input? port with
      | none => simp [network, found, Bank.slotsAt, exists_] at filled
      | some buffer =>
        have value : buffer.peek? ≠ none := by
          simpa [network, found, Bank.slotsAt, exists_, InputBuffer.peek?] using filled
        simpa [Bank.ready, exists_, InputBuffer.hasValue, Option.isSome_iff_ne_none] using value
  · intro accepts output
    cases found : unitNumbered? machine.units output.unit with
    | none => simp [network, found]
    | some unit =>
      have exhausted := (still unit (List.mem_of_find?_eq_some found)).outputs accepts
      cases exists_ : unit.buffers.output? output.buffer with
      | none => simp [network, found, Bank.valuesAt, exists_]
      | some buffer =>
        have nothing := exhausted buffer (List.mem_of_getElem? exists_)
        simpa [network, found, Bank.valuesAt, Bank.destinationsAt, exists_,
          OutputBuffer.Exhausted] using nothing

/-- A finished machine that is still has completed its program. -/
theorem Suits.completed (suits : machine.Suits program) (finished : machine.isFinished = true)
    (still : ∀ unit ∈ machine.units, unit.Still machine.shared) :
    machine.network.Completed machine.topology.depth.value := by
  obtain ⟨⟨halted, quiet⟩, inFlight⟩ := by
    simpa [isFinished, List.all_eq_true] using finished
  have idle {number : UInt8} {unit : ProcessingUnit}
      (found : unitNumbered? machine.units number = some unit) :
      unit.isQuiet = true := quiet unit (List.mem_of_find?_eq_some found)
  refine ⟨halted, ?_, ?_, inFlight, suits.still still⟩
  · rintro ⟨number, side⟩
    cases found : unitNumbered? machine.units number with
    | none => simp [held, network, found]
    | some unit =>
      have isQuiet := idle found
      simp only [ProcessingUnit.isQuiet, Bool.and_eq_true, Manager.isIdle] at isQuiet
      cases side <;> simp_all [held, network, ProcessingUnit.manager]
  · intro number kernel present
    obtain ⟨unit, found, rfl⟩ := Option.map_eq_some_iff.mp present
    have isQuiet := idle found
    simp only [ProcessingUnit.isQuiet, Bool.and_eq_true] at isQuiet
    simpa using isQuiet.2

theorem Fresh.completed_of_runFrom (fresh : Fresh topology program loaded)
    (runs : Runs loaded machine) {done left : Nat} {report : RunReport}
    (ends : machine.runFrom done left = (after, .ok report))
    (completed : report.outcome = .completed) :
    after.network.Completed topology.depth.value ∧
      (∃ events : History, events.Undisturbed ∧
        Evolves program topology.depth.value machine.network events after.network) ∧
      Runs loaded after ∧ ∃ steps, report = after.report .completed steps := by
  induction left generalizing machine done with
  | zero =>
    obtain rfl := Except.ok.inj (Prod.mk.inj ends).2
    cases completed
  | succ left ih =>
    obtain ⟨-, events, evolves, -, sound⟩ := fresh.round_explained runs
    rw [runFrom] at ends
    cases reported : machine.round.report with
    | error cause =>
      simp only [reported] at ends
      cases (Prod.mk.inj ends).2
    | ok progressed =>
      rw [reported] at sound
      cases progressed with
      | true =>
        simp only [reported] at ends
        obtain ⟨isCompleted, ⟨later, undisturbed, evolvesOn⟩, rest⟩ := ih runs.round ends
        exact ⟨isCompleted, ⟨events ++ later,
          (History.undisturbed_append _).mpr ⟨sound, undisturbed⟩, evolves.trans evolvesOn⟩, rest⟩
      | false =>
        simp only [reported] at ends
        obtain ⟨rfl, reports⟩ := Prod.mk.inj ends
        obtain rfl := Except.ok.inj reports
        obtain ⟨same, still⟩ := round_rests reported
        have finished : machine.round.state.isFinished = true := by
          by_contra unfinished
          rw [report, if_neg unfinished] at completed
          cases completed
        rw [if_pos finished]
        refine ⟨?_, ⟨events, sound, evolves⟩, runs.round, done + 1, rfl⟩
        rw [same] at finished ⊢
        rw [← (fresh.follows_of_runs runs).isOf]
        exact (fresh.suits_of_runs runs).completed finished still

/-- Where a run that is reported complete has come to, and how. -/
theorem Fresh.completed_of_run (fresh : Fresh topology program loaded)
    (runs : Runs loaded machine) {report : RunReport} (ends : machine.run = (after, .ok report))
    (completed : report.outcome = .completed) :
    after.network.Completed topology.depth.value ∧
      (∃ events : History, events.Undisturbed ∧
        Evolves program topology.depth.value machine.network events after.network) ∧
      Runs loaded after ∧ ∃ steps, report = after.report .completed steps := by
  rw [run] at ends
  split at ends
  · exact fresh.completed_of_runFrom runs ends completed
  · cases (Prod.mk.inj ends).2

end Machine
end MoveMachine
