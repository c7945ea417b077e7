import MoveMachine.Proofs.Machine.Completion
import MoveMachine.Proofs.Network.Order
import Mathlib

/-!
# Conservation of tokens

Every move out of an output that was issued is a token. It waits in the manager
of the output, then as a destination in the output, then it is a packet, which
arrives or is dropped; so at any time the moves issued are the tokens found in
these places (`Network.Evolves.tokens`).

A run is complete when the program is at its end, the managers are idle and no
packet is in flight. The contents of the buffers are not part of that, but they
are known then, as is what the rounds did on the way (`Network.Settled`): each
instruction was applied once to each buffer that it concerns, and a move that was not
carried out waits in its output for a value that was never produced, and in its input
for that value.

`Machine.tokens_conserved` says both of the machine.
-/

set_option autoImplicit false

namespace MoveMachine

/-- If every item that counts passes the test of one key, and every other item that of none, the
items that count are those that pass the tests of all keys together. -/
theorem sum_countP {Item Key : Type} [DecidableEq Key] {keys : List Key} (distinct : keys.Nodup)
    (test : Key → Item → Bool) (counts : Item → Bool) {items : List Item}
    (one : ∀ item ∈ items, counts item = true →
      ∃ key ∈ keys, ∀ other, test other item = decide (other = key))
    (none : ∀ item ∈ items, counts item = false → ∀ key, test key item = false) :
    (keys.map fun key => items.countP (test key)).sum = items.countP counts := by
  induction items with
  | nil => simp
  | cons item later ih =>
    have rest := ih (fun other member => one other (List.mem_cons_of_mem _ member))
      (fun other member => none other (List.mem_cons_of_mem _ member))
    simp only [List.countP_cons, List.sum_map_add, rest]
    congr 1
    cases isCounted : counts item with
    | false => simp [none item List.mem_cons_self isCounted]
    | true =>
      obtain ⟨key, isKey, passes⟩ := one item List.mem_cons_self isCounted
      refine (List.sum_map_eq_nsmul_single key _ fun other apart _ => ?_).trans ?_
      · simp [passes, apart]
      · simp [passes, List.count_eq_one_of_mem distinct isKey]

/-- Whether an instruction moves a value out of some output. -/
def Instruction.sends : Instruction → Bool
  | .move source _ => !source.isNull
  | .immediate .. | .jump _ => false

theorem Instruction.sends_of_comesFrom {instruction : Instruction} {output : Address}
    (comes : instruction.comesFrom output = true) : instruction.sends = true := by
  cases instruction with
  | move source destination =>
    obtain ⟨real, rfl⟩ := comesFrom_move_iff.mp comes
    simpa [sends] using real
  | immediate value destination => simp [comesFrom] at comes
  | jump target => simp [comesFrom] at comes

theorem Instruction.exists_comesFrom {instruction : Instruction}
    (isSending : instruction.sends = true) :
    ∃ output, instruction.comesFrom output = true := by
  cases instruction with
  | move source destination =>
    exact ⟨source, comesFrom_move_iff.mpr ⟨by simpa [sends] using isSending, rfl⟩⟩
  | immediate value destination => cases isSending
  | jump target => cases isSending

namespace Network

variable {program : List Instruction} {depth : Nat} {start network : Network} {history : History}

/-! ## Tokens -/

/-- Moves are found by the outputs that they come from. -/
theorem sum_comesFrom {outputs : List Address} (distinct : outputs.Nodup)
    {instructions : List Instruction}
    (covers : ∀ instruction ∈ instructions, ∀ output, instruction.comesFrom output = true →
      output ∈ outputs) :
    (outputs.map fun output => instructions.countP (·.comesFrom output)).sum =
      instructions.countP Instruction.sends := by
  refine sum_countP distinct (fun output (instruction : Instruction) =>
    instruction.comesFrom output) _ ?_ ?_
  · intro instruction member isSending
    obtain ⟨output, comes⟩ := Instruction.exists_comesFrom isSending
    exact ⟨output, covers instruction member output comes, fun other =>
      Instruction.comesFrom_unique comes⟩
  · intro instruction member notSending output
    by_contra comes
    rw [Instruction.sends_of_comesFrom (by simpa using comes)] at notSending
    cases notSending

/-- The moves issued are the packets sent, wherever they are now, the destinations that wait in
outputs, and what the managers of the outputs still hold. -/
theorem Evolves.tokens (blank : start.Blank)
    (evolves : Evolves program depth start history network) {outputs : List Address}
    (distinct : outputs.Nodup)
    (covers : ∀ instruction ∈ program, ∀ output, instruction.comesFrom output = true →
      output ∈ outputs) :
    history.issued.countP Instruction.sends =
      network.shared.interconnect.delivered + network.shared.interconnect.discarded +
        network.shared.interconnect.inFlight.length +
          (outputs.map fun output => (network.destinations output).length).sum +
            (outputs.map fun output =>
              (network.held (output.unit, .output)).countP (·.comesFrom output)).sum := by
  have account := evolves.account blank
  have issued := sum_comesFrom distinct fun instruction member =>
    covers instruction (evolves.issued_mem instruction member)
  have sent : (outputs.map fun output => history.sent.countP (·.sender = output)).sum =
      history.sent.length := by
    rw [← List.countP_true]
    refine sum_countP distinct (fun output (packet : Packet) => decide (packet.sender = output))
      (fun _ => true) ?_ (fun _ _ uncounted => absurd uncounted (by decide))
    intro packet member _
    have directed : packet.destination ∈
        (history.directed packet.sender).map Instruction.destination := by
      rw [account.destinations]
      refine List.mem_append_left _ (List.mem_map_of_mem ?_)
      exact List.mem_filter.mpr ⟨member, by simp⟩
    obtain ⟨instruction, isDirected, -⟩ := List.mem_map.mp directed
    obtain ⟨inProgram, comes⟩ := evolves.directed_mem blank isDirected
    exact ⟨packet.sender, covers instruction inProgram _ comes, fun other => by
      simp [eq_comm]⟩
  have perOutput (output : Address) : history.issued.countP (·.comesFrom output) =
      history.sent.countP (·.sender = output) + (network.destinations output).length +
        (network.held (output.unit, .output)).countP (·.comesFrom output) := by
    have order := congrArg List.length (account.directed_append output)
    have tags := congrArg List.length (account.destinations output)
    simp only [List.length_append, List.length_map, History.sentFrom,
      ← List.countP_eq_length_filter] at order tags
    omega
  rw [← account.packets, ← sent, ← issued]
  simp only [perOutput, List.sum_map_add]

/-! ## Completed runs -/

/-- What is known about a chronicle from a load on and about the buffers when certain instructions
were issued and all of them were applied. -/
structure Settled (issued : List Instruction) (chronicle : Chronicle) (network : Network) :
    Prop where
  /-- Every manager has applied what concerns it, in the order of issue and each instruction
  once. -/
  applied : ∀ post, chronicle.applied post = issued.filter (·.concerns post)
  /-- Each instruction for an input has opened its slot there. -/
  opened : ∀ input,
    chronicle.opened input = (issued.filter (·.goesTo input)).map Instruction.slot
  /-- Each move from an output has given it its destination. -/
  directed : ∀ output,
    chronicle.directed output = (issued.filter (·.comesFrom output)).map Instruction.destination
  /-- A move was carried out exactly if the kernel of its source has produced a value for it. -/
  carriedOut : ∀ (index : Nat) (source destination : Address),
    issued[index]? = some (.move source destination) → source.isNull = false →
      (Instruction.rank issued index (·.comesFrom source) < (chronicle.departed source).length ↔
        Instruction.rank issued index (·.comesFrom source) < (chronicle.pushed source).length)
  /-- Where destinations wait, no value does. -/
  outputs : ∀ output, network.destinations output ≠ [] → network.values output = []
  /-- An input awaits as many values from an output as destinations wait there for it. -/
  inputs : ∀ output input : Address, output.isNull = false → input.isNull = false →
    (network.slots input).count (.awaiting output) = (network.destinations output).count input

/-- The slots that still await a value, among those that were ever opened. -/
theorem Account.count_awaiting (account : Account history network) {output : Address}
    (real : output.isNull = false) (input : Address) :
    (network.slots input).count (.awaiting output) +
        (history.arrivedOn (output, input)).length =
      (history.opened input).countP (·.comesFrom output) := by
  have notRetired : (history.retiredAt input).count (.awaiting output) = 0 := by
    refine List.count_eq_zero.mpr fun member => ?_
    obtain ⟨entry, isEntry, isThis⟩ := List.mem_map.mp member
    have closed := account.retired entry (List.mem_filter.mp isEntry).1
    rw [isThis] at closed
    cases closed
  have awaits : (window history network input).count (.awaiting output) =
      (network.slots input).count (.awaiting output) := by
    rw [window, List.count_append, notRetired, Nat.zero_add]
  obtain ⟨missing, fills⟩ := account.fills output input
  have fromOutput : ((window history network input).filter (·.isFrom output)).count
      (.awaiting output) = (window history network input).count (.awaiting output) :=
    List.count_filter (by simp)
  have notArrived : ((history.arrivedOn (output, input)).map
      fun packet => Slot.arrived output packet.value).count (.awaiting output) = 0 := by
    simp [List.count_eq_zero]
  rw [fills, List.count_append, notArrived, List.count_replicate_self, Nat.zero_add, awaits]
    at fromOutput
  have perSlot : (history.opened input).countP (·.comesFrom output) =
      (window history network input).countP (·.isFrom output) := by
    have slots := congrArg (List.countP (·.isFrom output)) (account.windows input)
    rw [List.countP_map, List.countP_map] at slots
    refine Eq.trans (List.countP_congr fun instruction _ => ?_) (slots.symm.trans
      (List.countP_congr fun slot _ => ?_))
    · rw [Function.comp_apply, isFrom_slot real]
    · rw [Function.comp_apply, isFrom_asOpened]
  rw [perSlot, List.countP_eq_length_filter, fills, List.length_append, List.length_map,
    List.length_replicate, ← fromOutput]
  exact Nat.add_comm _ _

/-- What the events of a history did is settled when a run is complete. -/
theorem Evolves.settled (blank : start.Blank)
    (evolves : Evolves program depth start history network)
    (room : 0 < network.shared.interconnect.capacity) (completed : network.Completed depth) :
    Settled (Instruction.firstIssued program network.issued) history.chronicle network := by
  have account := evolves.account blank
  rw [← (evolves.issued_eq blank).1]
  refine ⟨fun post => ?_, fun input => ?_, fun output => ?_, ?_,
    fun output => completed.values_eq_nil room, ?_⟩
  · rw [← account.managers post, completed.held post, List.append_nil]
    rfl
  · exact congrArg (List.map Instruction.slot) (completed.opened account input)
  · exact congrArg (List.map Instruction.destination) (completed.directed account output)
  · intro index source destination issued real
    have ranked := getElem?_filter_countP (·.comesFrom source) issued
      (Instruction.comesFrom_move_iff.mpr ⟨real, rfl⟩)
    have inside := (List.getElem?_eq_some_iff.mp ranked).1
    rw [← List.countP_eq_length_filter] at inside
    have sent := completed.length_sentFrom account room source
    simp only [Instruction.rank, History.chronicle]
    omega
  · intro output input real realInput
    have slots := account.count_awaiting real input
    have tags := congrArg (List.countP (· = input)) (account.destinations output)
    have travels := congrArg List.length (completed.arrivedOn account output realInput)
    rw [← List.countP_eq_length_filter] at travels
    rw [completed.directed account, List.countP_append, List.countP_map, List.countP_map,
      List.countP_filter] at tags
    rw [completed.opened account, List.countP_filter] at slots
    have same : history.issued.countP (fun instruction =>
        instruction.comesFrom output && instruction.goesTo input) =
        history.issued.countP fun instruction =>
          ((fun destination => decide (destination = input)) ∘ Instruction.destination) instruction
            && instruction.comesFrom output := by
      refine List.countP_congr fun instruction _ => ?_
      simp [Instruction.goesTo, realInput, and_comm]
    have counted : (network.destinations output).countP (· = input) =
        (network.destinations output).count input := by
      rw [List.count]
      refine List.countP_congr fun destination _ => ?_
      simp
    have packets : (history.sentFrom output).countP
        ((fun destination => decide (destination = input)) ∘ Packet.destination) =
        (history.sentFrom output).countP (·.destination = input) := rfl
    omega

end Network

namespace ProcessingUnit

/-- The addresses of the outputs of a unit. -/
def outputAddresses (unit : ProcessingUnit) : List Address :=
  (List.range unit.buffers.outputs.length).map fun index => ⟨unit.number, UInt8.ofNat index⟩

variable {depth : Depth} {unit : ProcessingUnit}

theorem unit_of_mem_outputAddresses {output : Address} (member : output ∈ unit.outputAddresses) :
    output.unit = unit.number := by
  obtain ⟨index, -, rfl⟩ := List.mem_map.mp member
  rfl

theorem Fitted.outputAddresses_nodup (fitted : unit.Fitted depth) : unit.outputAddresses.Nodup := by
  refine List.nodup_range.map_on fun first isFirst second isSecond same => ?_
  have few := fitted.outputs_length_le
  have bytes : UInt8.size = 256 := rfl
  have indices := congrArg UInt8.toNat (congrArg Address.buffer same)
  rwa [UInt8.toNat_ofNat_of_lt' (by have := List.mem_range.mp isFirst; omega),
    UInt8.toNat_ofNat_of_lt' (by have := List.mem_range.mp isSecond; omega)] at indices

theorem Serves.mem_outputAddresses {program : List Instruction} (serves : unit.Serves program)
    {instruction : Instruction} (member : instruction ∈ program) {output : Address}
    (own : output.unit = unit.number) (comes : instruction.comesFrom output = true) :
    output ∈ unit.outputAddresses := by
  refine List.mem_map.mpr ⟨output.buffer.toNat, ?_, ?_⟩
  · exact List.mem_range.mpr (serves.output instruction member output own comes)
  · rw [← own, UInt8.ofNat_toNat]

/-- What the outputs of a unit hold, by address. -/
theorem Fitted.map_outputAddresses {Contents : Type} (fitted : unit.Fitted depth)
    (of : OutputBuffer → Contents) (read : Address → Contents)
    (reads : ∀ index buffer, unit.buffers.output? index = some buffer →
      read ⟨unit.number, index⟩ = of buffer) :
    unit.outputAddresses.map read = unit.buffers.outputs.map of := by
  refine List.ext_getElem (by simp [outputAddresses]) fun index inside inside' => ?_
  simp only [outputAddresses, List.getElem_map, List.getElem_range]
  rw [List.length_map] at inside'
  refine reads _ _ ?_
  have few := fitted.outputs_length_le
  rw [Bank.output?, UInt8.toNat_ofNat_of_lt' (by
    have bytes : UInt8.size = 256 := rfl
    omega)]
  exact List.getElem?_eq_getElem inside'

end ProcessingUnit

namespace Machine

open Network

/-- The destinations that wait in all outputs. -/
def waitingTags (machine : Machine) : List Address :=
  machine.units.flatMap fun unit => unit.buffers.outputs.flatMap (·.destinations)

/-- The moves that the managers of all outputs hold. -/
def queuedMoves (machine : Machine) : List Instruction :=
  machine.units.flatMap fun unit =>
    unit.outputManager.pending.toList ++ unit.outputManager.inbox

/-- The addresses of all outputs. -/
def outputAddresses (machine : Machine) : List Address := machine.units.flatMap (·.outputAddresses)

variable {program : List Instruction} {machine : Machine}

theorem Suits.outputAddresses_nodup (suits : machine.Suits program) :
    machine.outputAddresses.Nodup := by
  refine List.nodup_flatMap.mpr
    ⟨fun unit member => (suits.fitted unit member).outputAddresses_nodup, ?_⟩
  have apart : machine.units.Pairwise fun first second => first.number ≠ second.number :=
    List.pairwise_map.mp suits.distinct
  refine apart.imp fun differ => ?_
  intro output isFirst isSecond
  exact differ ((ProcessingUnit.unit_of_mem_outputAddresses isFirst).symm.trans
    (ProcessingUnit.unit_of_mem_outputAddresses isSecond))

theorem Suits.mem_outputAddresses (suits : machine.Suits program) {instruction : Instruction}
    (member : instruction ∈ program) {output : Address}
    (comes : instruction.comesFrom output = true) : output ∈ machine.outputAddresses := by
  have concerned : instruction.concerns (output.unit, .output) = true :=
    Instruction.concerns_output_iff.mpr ⟨output, rfl, comes⟩
  obtain ⟨unit, found⟩ := Option.isSome_iff_exists.mp (suits.present _ member _ concerned)
  have isUnit := List.mem_of_find?_eq_some found
  exact List.mem_flatMap.mpr ⟨unit, isUnit, (suits.serves unit isUnit).mem_outputAddresses member
    (number_of_unitNumbered? found).symm comes⟩

/-- Summing over all outputs is summing over the outputs of each unit. -/
theorem sum_outputAddresses (machine : Machine) (amount : Address → Nat) :
    (machine.outputAddresses.map amount).sum =
      (machine.units.map fun unit => (unit.outputAddresses.map amount).sum).sum := by
  rw [outputAddresses]
  induction machine.units with
  | nil => rfl
  | cons unit later ih => simp [ih]

theorem Suits.length_waitingTags (suits : machine.Suits program) :
    (machine.outputAddresses.map fun output => (machine.network.destinations output).length).sum =
      machine.waitingTags.length := by
  rw [sum_outputAddresses, waitingTags, List.length_flatMap]
  congr 1
  refine List.map_congr_left fun unit member => ?_
  rw [List.length_flatMap, (suits.fitted unit member).map_outputAddresses (·.destinations.length)]
  intro index buffer found
  simp [network, unitNumbered?_of_mem suits.distinct member, Bank.destinationsAt_of_output? found]

theorem Suits.length_queuedMoves (suits : machine.Suits program)
    (held : ∀ post, ∀ instruction ∈ machine.network.held post,
      instruction ∈ program ∧ instruction.concerns post = true) :
    (machine.outputAddresses.map fun output =>
        (machine.network.held (output.unit, .output)).countP (·.comesFrom output)).sum =
      machine.queuedMoves.length := by
  rw [sum_outputAddresses, queuedMoves, List.length_flatMap]
  congr 1
  refine List.map_congr_left fun unit member => ?_
  have queue : machine.network.held (unit.number, .output) =
      unit.outputManager.pending.toList ++ unit.outputManager.inbox := by
    simp [Network.held, network, unitNumbered?_of_mem suits.distinct member,
      ProcessingUnit.manager]
  rw [← queue, ← List.countP_true]
  have own : unit.outputAddresses.map (fun output =>
      (machine.network.held (output.unit, .output)).countP (·.comesFrom output)) =
        unit.outputAddresses.map fun output =>
          (machine.network.held (unit.number, .output)).countP (·.comesFrom output) := by
    refine List.map_congr_left fun output isOutput => ?_
    rw [ProcessingUnit.unit_of_mem_outputAddresses isOutput]
  rw [own]
  refine sum_countP (suits.fitted unit member).outputAddresses_nodup
    (fun output (instruction : Instruction) => instruction.comesFrom output) (fun _ => true) ?_
    (fun _ _ uncounted => absurd uncounted (by decide))
  intro instruction isHeld _
  obtain ⟨inProgram, concerned⟩ := held _ instruction isHeld
  obtain ⟨output, isOwn, comes⟩ := Instruction.concerns_output_iff.mp concerned
  exact ⟨output, (suits.serves unit member).mem_outputAddresses inProgram isOwn comes, fun other =>
    Instruction.comesFrom_unique comes⟩

/-- The moves issued are found among the packets, the waiting destinations and the queued moves. -/
theorem Suits.tokens (suits : machine.Suits program) {depth : Nat} {start : Network}
    {history : History} (blank : start.Blank)
    (evolves : Evolves program depth start history machine.network) :
    (Instruction.firstIssued program machine.issued).countP Instruction.sends =
      machine.shared.interconnect.delivered + machine.shared.interconnect.discarded +
        machine.shared.interconnect.inFlight.length + machine.waitingTags.length +
          machine.queuedMoves.length := by
  have tokens := evolves.tokens blank suits.outputAddresses_nodup fun instruction member output =>
    suits.mem_outputAddresses member
  rwa [suits.length_waitingTags, suits.length_queuedMoves fun post instruction =>
    evolves.held_mem blank, (evolves.issued_eq blank).1] at tokens

/-- Tokens are conserved: in every state after loading, each move out of an output that was issued
is a packet that arrived, was dropped or is in flight, or a destination that waits, or is still
queued. When a run is complete, the program has ended and, whatever the rounds since the load were,
what they did and what they left in the buffers is settled, so each of these moves is a packet that
arrived or was dropped, or a destination that waits. -/
theorem tokens_conserved {topology : Topology} {config : Config}
    {built before loaded machine : Machine} {image : Image} {program : List Instruction}
    (builds : ofTopology topology config = .ok built) (session : Session built before)
    (loads : before.load image = .ok loaded) (decodes : image.program = .ok program)
    (runs : Runs loaded machine) :
    ((Instruction.firstIssued program machine.issued).countP Instruction.sends =
      machine.shared.interconnect.delivered + machine.shared.interconnect.discarded +
        machine.shared.interconnect.inFlight.length + machine.waitingTags.length +
          machine.queuedMoves.length) ∧
      ∀ (after : Machine) (report : RunReport), machine.run = (after, .ok report) →
        report.outcome = .completed →
          program.length ≤ after.pc ∧
          (∃ log, Logs loaded log after) ∧
          (∀ log, Logs loaded log after →
            Settled (Instruction.firstIssued program after.issued) log.chronicle after.network) ∧
          report.delivered + report.discarded + after.waitingTags.length =
            (Instruction.firstIssued program report.issued).countP Instruction.sends := by
  obtain ⟨checked, -⟩ := ofTopology_spec builds
  have fresh := session.fresh builds loads decodes
  obtain ⟨-, history, evolves⟩ := fresh.evolves runs
  refine ⟨(fresh.suits_of_runs runs).tokens fresh.blank evolves, ?_⟩
  intro after report ends isCompleted
  obtain ⟨completed, -, runsAfter, steps, rfl⟩ :=
    fresh.completed_of_run runs ends isCompleted
  obtain ⟨-, history, evolves⟩ := fresh.evolves runsAfter
  have suits := fresh.suits_of_runs runsAfter
  have room := (fresh.follows_of_runs runsAfter).capacity_pos checked
  refine ⟨?_, runsAfter.exists_logs, fun log logs => ?_, ?_⟩
  · exact List.getElem?_eq_none_iff.mp (evolves.ended fresh.blank completed.halted)
  · obtain ⟨-, way, explains, does⟩ := fresh.logged logs
    rw [← does]
    exact explains.settled fresh.blank room completed
  · have tokens := suits.tokens fresh.blank evolves
    have flying : after.shared.interconnect.inFlight = [] := completed.inFlight
    have queued := suits.length_queuedMoves fun post instruction => evolves.held_mem fresh.blank
    simp only [completed.held, List.countP_nil, List.map_const', List.sum_replicate_nat,
      Nat.mul_zero] at queued
    rw [flying, ← queued, List.length_nil] at tokens
    exact tokens.symm

theorem relay_tokens_conserved :
    ∃ (built loaded : Machine) (report : RunReport),
      ofTopology (.relay ⟨2, by decide, by decide⟩) .default = .ok built ∧
      built.load (.ofProgram Instruction.relayed) = .ok loaded ∧
      loaded.run = (loaded.run.1, .ok report) ∧ report.outcome = .completed ∧
      Instruction.relayed.length ≤ loaded.run.1.pc ∧
      (∃ log, Logs loaded log loaded.run.1) ∧
      (∀ log, Logs loaded log loaded.run.1 →
        Settled (Instruction.firstIssued Instruction.relayed loaded.run.1.issued) log.chronicle
          loaded.run.1.network) ∧
      report.delivered + report.discarded + loaded.run.1.waitingTags.length =
        (Instruction.firstIssued Instruction.relayed report.issued).countP Instruction.sends := by
  obtain ⟨built, loaded, builds, loads, completes⟩ := relay_completes (.inr rfl)
  have ends : loaded.run = (loaded.run.1, .ok ⟨.completed, 5, 2, 1, 0, [.ofNat 7]⟩) := by
    rw [← completes]
  exact ⟨built, loaded, _, builds, loads, ends, rfl,
    (tokens_conserved builds .built loads Image.program_relayed .loaded).2 _ _ ends rfl⟩

end Machine
end MoveMachine
