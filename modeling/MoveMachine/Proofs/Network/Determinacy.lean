import MoveMachine.Proofs.Network.Front

/-!
# Determinacy

A network is one of processes that communicate through queues, and what such a
network computes does not depend on the order in which its processes take turns,
nor on the room in its queues as long as the run is completed. The kernels of two
runs of one program fire alike, as far as they both go: at its next firing, a
kernel finds the same values in either (`Network.Recorded.firing_unique`). One
run may go on where the other, completed, has stopped for want of room. Then the
unit is one whose output no move waits for (`Network.Surplus`), so nothing
follows from it, and the run keeps to the other's firings everywhere else
(`Network.Finishes.tracks`).

The control unit takes values from any of its inputs, whichever is first. Only
if all instructions for it go to one input does it keep to an order.
-/

set_option autoImplicit false

namespace MoveMachine

namespace Network

variable {memoryUnit control port : UInt8} {all program : List Instruction} {depth : Nat}
  {start startOther network final after : Network} {history other : History} {unit : UInt8}

/-! ## Firings -/

/-- What a kernel finds in its inputs when it fires. -/
structure Offers (network : Network) (unit : UInt8) (kernel : Kernel) (taken : Firing) : Prop where
  present : network.kernel unit = some kernel
  awaits : kernel.Awaits (taken.map (·.1))
  fronts : ∀ entry ∈ taken, network.Front ⟨unit, entry.1⟩ entry.2

theorem Step.offers {taken : Firing} {emitted : Option Word}
    (happens : Step program depth network (.fire unit taken emitted) after) :
    ∃ kernel, network.Offers unit kernel taken := by
  cases happens with
  | @fire _ kernel _ words reaction present awaits room heads holds reacts =>
    exact ⟨kernel, present, awaits, fun entry member =>
      ⟨heads entry member, exists_value_of_holds holds member⟩⟩

/-- A firing is known from its inputs and what is at their fronts. -/
theorem Offers.eq_map {kernel : Kernel} {taken : Firing}
    (offers : network.Offers unit kernel taken) :
    taken = (taken.map (·.1)).map fun port =>
      (port, (network.slots ⟨unit, port⟩).head?.getD .marker) := by
  rw [List.map_map]
  refine (List.map_id taken).symm.trans (List.map_congr_left fun entry member => ?_)
  simp [(offers.fronts entry member).head]

/-! ## What the history of a run records -/

/-- What is known of a network from its history, when no kernel has failed, in a run in which
certain instructions are issued and the control unit takes from one input. -/
structure Recorded (memoryUnit control port : UInt8) (all : List Instruction) (start : Network)
    (history : History) (network : Network) : Prop where
  account : Account history network
  replays : Replays memoryUnit control start history network
  issued : history.issued <+: all
  taken : ∀ input, (history.retiredAt input).countP Slot.isForValue =
    (history.firings input.unit).flatten.countP (·.1 = input.buffer)
  funnels : ∀ (unit buffer : UInt8) (slot : Slot), network.kernel unit = some .control →
    (network.slots ⟨unit, buffer⟩).head? = some slot → buffer = port

/-- Starts from which the same is computed. -/
structure Alike (start other : Network) : Prop where
  kernel : start.kernel = other.kernel
  memory : start.shared.memory = other.shared.memory

theorem Alike.symm (alike : start.Alike startOther) : startOther.Alike start :=
  ⟨alike.kernel.symm, alike.memory.symm⟩

theorem Alike.course (alike : start.Alike startOther) (unit : UInt8) (firings : List Firing) :
    start.course unit firings = startOther.course unit firings := by
  rw [Network.course, Network.course, alike.kernel, alike.memory]

theorem Recorded.of_alike (alike : start.Alike startOther)
    (recorded : Recorded memoryUnit control port all start history network) :
    Recorded memoryUnit control port all startOther history network where
  account := recorded.account
  issued := recorded.issued
  taken := recorded.taken
  funnels := recorded.funnels
  replays := by
    obtain ⟨kernel, produced, memory, collected⟩ := recorded.replays
    simp only [alike.course] at kernel produced memory collected
    exact ⟨alike.kernel ▸ kernel, produced, memory, collected⟩

/-- Only the outputs of kernels are given values. -/
theorem produced_eq_nil (history : History) {output : Address}
    (noResult : output.buffer ≠ Bank.result) : history.produced output = [] := by
  refine List.flatMap_eq_nil_iff.mpr fun event _ => ?_
  cases event with
  | fire unit taken emitted =>
    have elsewhere : (⟨unit, Bank.result⟩ : Address) ≠ output := fun same =>
      noResult (congrArg Address.buffer same).symm
    simp [elsewhere]
  | issue | halt | fetch | apply | clear | fail | send | arrive | write => rfl

/-- The control unit takes its values from the one input. -/
theorem Recorded.ports_of_control
    (recorded : Recorded memoryUnit control port all start history network)
    {taken : Firing} (offers : network.Offers unit .control taken) :
    taken.map (·.1) = [port] := by
  have awaits := offers.awaits
  generalize isPorts : taken.map (·.1) = ports at awaits
  cases awaits with
  | collect buffer =>
    obtain ⟨entry, rfl, rfl⟩ := List.map_eq_singleton_iff.mp isPorts
    have front := offers.fronts entry List.mem_cons_self
    rw [recorded.funnels unit entry.1 entry.2 offers.present front.head]

section TwoRuns

variable (first : Recorded memoryUnit control port all start history network)
  (second : Recorded memoryUnit control port all start other final)

include first second

/-- With the same firings, and perhaps more, a kernel produces the same values, and perhaps
more. -/
theorem Recorded.produced_prefix {output : Address}
    (fewer : history.firings output.unit <+: other.firings output.unit) :
    history.produced output <+: other.produced output := by
  by_cases isResult : output.buffer = Bank.result
  · have whole : output = ⟨output.unit, Bank.result⟩ := by rw [← isResult]
    rw [whole, first.replays.produced, second.replays.produced]
    exact emitted_course_prefix start output.unit fewer
  · rw [produced_eq_nil history isResult]
    exact List.nil_prefix

/-- After the same firings a kernel is the same. -/
theorem Recorded.kernel_eq (same : history.firings unit = other.firings unit) :
    network.kernel unit = final.kernel unit := by
  rw [first.replays.kernel, second.replays.kernel, same]

theorem Recorded.taken_eq (same : history.firings unit = other.firings unit) (buffer : UInt8) :
    (history.retiredAt ⟨unit, buffer⟩).countP Slot.isForValue =
      (other.retiredAt ⟨unit, buffer⟩).countP Slot.isForValue := by
  rw [first.taken, second.taken, same]

/-- After the same firings, a kernel finds the same values for its next one in either run, if the
values produced agree. -/
theorem Recorded.firing_unique
    (agree : ∀ unit, history.firings unit <+: other.firings unit ∨
      other.firings unit <+: history.firings unit)
    (same : history.firings unit = other.firings unit) {kernel kernelOther : Kernel}
    {taken takenOther : Firing} (offers : network.Offers unit kernel taken)
    (offersOther : final.Offers unit kernelOther takenOther) : taken = takenOther := by
  have produced (output : Address) : history.produced output <+: other.produced output ∨
      other.produced output <+: history.produced output :=
    (agree output.unit).imp (first.produced_prefix second) (second.produced_prefix first)
  have sameKernel := first.kernel_eq second same
  rw [offers.present, offersOther.present, Option.some.injEq] at sameKernel
  subst sameKernel
  have ports : taken.map (·.1) = takenOther.map (·.1) := by
    by_cases isControl : kernel = .control
    · subst isControl
      rw [first.ports_of_control offers, second.ports_of_control offersOther]
    · exact Kernel.Awaits.unique isControl offers.awaits offersOther.awaits
  rw [offers.eq_map, offersOther.eq_map, ports]
  refine List.map_congr_left fun buffer member => ?_
  obtain ⟨entryOther, inOther, isBuffer⟩ := List.mem_map.mp member
  obtain ⟨entry, inTaken, isBufferToo⟩ := List.mem_map.mp (ports ▸ member)
  have front := offers.fronts entry inTaken
  have frontOther := offersOther.fronts entryOther inOther
  rw [isBufferToo] at front
  rw [isBuffer] at frontOther
  rw [front.head, frontOther.head, Front.unique first.account second.account first.issued
    second.issued (first.taken_eq second same buffer) produced front frontOther]

end TwoRuns

/-! ## Runs compared -/

/-- Whether what a unit produces in a completed network is no longer waited for. -/
structure Surplus (network : Network) (unit : UInt8) : Prop where
  produces : ∃ kernel, network.kernel unit = some kernel ∧ kernel.produces = true
  unwanted : network.destinations ⟨unit, Bank.result⟩ = []

/-- Whether the firings of a history are those of a completed run, apart from surplus ones. -/
def Tracks (done : History) (final : Network) (history : History) : Prop :=
  ∀ unit, history.firings unit <+: done.firings unit ∨
    done.firings unit <+: history.firings unit ∧ final.Surplus unit

/-- What is known of a completed run. -/
structure Finishes (program : List Instruction) (depth : Nat) (start : Network) (done : History)
    (final : Network) : Prop where
  evolves : Evolves program depth start done final
  undisturbed : done.Undisturbed
  completed : final.Completed depth
  room : 0 < final.shared.interconnect.capacity
  positive : 0 < depth

/-- Where a completed run has stopped, a kernel that can go on produces a surplus. -/
theorem Recorded.surplus
    (first : Recorded memoryUnit control port other.issued start history network)
    (second : Recorded memoryUnit control port other.issued start other final)
    (finishes : Finishes program depth startOther other final) (tracks : Tracks other final history)
    (same : history.firings unit = other.firings unit) {kernel : Kernel} {taken : Firing}
    (offers : network.Offers unit kernel taken) : final.Surplus unit := by
  have present : final.kernel unit = some kernel := by
    rw [← first.kernel_eq second same, offers.present]
  by_contra wanted
  have room (produces : kernel.produces = true) :
      (final.values ⟨unit, Bank.result⟩).length < depth := by
    have waits : final.destinations ⟨unit, Bank.result⟩ ≠ [] := fun unwanted =>
      wanted ⟨⟨kernel, present, produces⟩, unwanted⟩
    rw [finishes.completed.values_eq_nil finishes.room waits]
    exact finishes.positive
  obtain ⟨buffer, member, missing⟩ :=
    finishes.completed.still.kernels unit kernel _ present offers.awaits room
  obtain ⟨entry, inTaken, rfl⟩ := List.mem_map.mp member
  obtain ⟨source, waits, fewer⟩ := finishes.completed.lacks second.account finishes.room
    first.account first.issued (first.taken_eq second same entry.1) (offers.fronts entry inTaken)
    missing
  rcases tracks source.unit with behind | ⟨-, surplus⟩
  · exact absurd fewer (Nat.not_lt_of_le (first.produced_prefix second behind).length_le)
  · have isResult : source.buffer = Bank.result := by
      by_contra noResult
      rw [produced_eq_nil history noResult] at fewer
      exact absurd fewer (Nat.not_lt_zero _)
    have whole : source = ⟨source.unit, Bank.result⟩ := by rw [← isResult]
    exact waits (whole ▸ surplus.unwanted)

/-- Whether the order of events does not matter to a program: one unit at most has access to memory,
and the control unit takes from one input only. -/
structure Determinate (memoryUnit control port : UInt8) (program : List Instruction)
    (start : Network) : Prop where
  blank : start.Blank
  exclusive : start.Exclusive memoryUnit control
  funnels : ∀ instruction ∈ program, ∀ input : Address, instruction.goesTo input = true →
    input.unit = control → input.buffer = port

theorem Determinate.recorded (determinate : Determinate memoryUnit control port program start)
    (evolves : Evolves program depth start history network) (undisturbed : history.Undisturbed)
    (issued : history.issued <+: all) :
    Recorded memoryUnit control port all start history network where
  account := evolves.account determinate.blank
  replays := evolves.replays determinate.blank determinate.exclusive undisturbed
  issued := issued
  taken := evolves.countP_retiredAt undisturbed
  funnels := by
    intro unit buffer slot present head
    obtain ⟨original, isOriginal, -, type⟩ := evolves.exists_kernel present
    have isControl := determinate.exclusive.control unit original isOriginal type.symm
    have account := evolves.account determinate.blank
    -- the slot is that of an instruction that was issued for the input
    have opened := List.mem_map_of_mem (f := Slot.asOpened)
      (List.mem_of_getElem? (window_of_head? history head))
    rw [account.windows] at opened
    obtain ⟨instruction, isOpened, -⟩ := List.mem_map.mp opened
    have isIssued := List.mem_append_left
      ((network.held (unit, .input)).filter (·.goesTo ⟨unit, buffer⟩)) isOpened
    rw [account.opened_append ⟨unit, buffer⟩] at isIssued
    obtain ⟨member, goes⟩ := List.mem_filter.mp isIssued
    exact determinate.funnels instruction (evolves.issued_mem instruction member) _ goes isControl

/-- One firing more still keeps to the firings of a completed run. -/
theorem Tracks.fire {depthOther : Nat}
    (finishes : Finishes program depthOther startOther other final)
    (determinateOther : Determinate memoryUnit control port program startOther)
    (alike : startOther.Alike start) (tracks : Tracks other final history)
    (first : Recorded memoryUnit control port other.issued start history network)
    {kernel : Kernel} {taken : Firing} (offers : network.Offers unit kernel taken) :
    history.firings unit ++ [taken] <+: other.firings unit ∨
      other.firings unit <+: history.firings unit ++ [taken] ∧ final.Surplus unit := by
  rcases tracks unit with ⟨rest, whole⟩ | ⟨ahead, surplus⟩
  · cases rest with
    | nil =>
      rw [List.append_nil] at whole
      have second := (determinateOther.recorded finishes.evolves finishes.undisturbed
        List.prefix_rfl).of_alike alike
      refine .inr ⟨?_, first.surplus second finishes tracks whole offers⟩
      rw [← whole]
      exact List.prefix_append _ _
    | cons next later =>
      -- the completed run has been where this firing comes next
      obtain ⟨before, here, _, _, isBefore, sameBefore, evolvesBefore, happensThere⟩ :=
        finishes.evolves.exists_firing whole.symm
      obtain ⟨kernelOther, offersOther⟩ := happensThere.offers
      obtain ⟨further, isWhole⟩ := isBefore
      have undisturbedThere : before.Undisturbed :=
        ((History.undisturbed_append further).mp (isWhole ▸ finishes.undisturbed)).1
      have issuedThere : before.issued <+: other.issued := by
        rw [← isWhole, History.issued_append]
        exact List.prefix_append _ _
      have second := (determinateOther.recorded evolvesBefore undisturbedThere
        issuedThere).of_alike alike
      have agree (unit : UInt8) : history.firings unit <+: before.firings unit ∨
          before.firings unit <+: history.firings unit := by
        have fewer := History.firings_prefix ⟨further, isWhole⟩ unit
        rcases tracks unit with behind | ⟨ahead, -⟩
        · exact List.prefix_or_prefix_of_prefix behind fewer
        · exact .inr (fewer.trans ahead)
      obtain rfl := first.firing_unique second agree sameBefore.symm offers offersOther
      exact .inl ⟨later, by rw [← whole, List.append_assoc, List.singleton_append]⟩
  · exact .inr ⟨ahead.trans (List.prefix_append _ _), surplus⟩

/-- Whatever happens in a run happens in a completed run of the program as well, apart from surplus
firings. -/
theorem Finishes.tracks {depthOther : Nat}
    (finishes : Finishes program depthOther startOther other final)
    (determinateOther : Determinate memoryUnit control port program startOther)
    (determinate : Determinate memoryUnit control port program start)
    (alike : startOther.Alike start) (evolves : Evolves program depth start history network)
    (undisturbed : history.Undisturbed) (issued : history.issued <+: other.issued) :
    Tracks other final history := by
  induction evolves with
  | start => exact fun unit => .inl List.nil_prefix
  | @step history network after event earlier happens ih =>
    obtain ⟨undisturbedBefore, -⟩ := (History.undisturbed_append _).mp undisturbed
    rw [History.issued_append] at issued
    have issuedBefore := (List.prefix_append _ _).trans issued
    have tracks := ih undisturbedBefore issuedBefore
    intro unit
    rw [History.firings_append, History.firings_singleton]
    rcases event.fired_cases unit with none | ⟨taken, emitted, rfl, fired⟩
    · rw [none, List.append_nil]
      exact tracks unit
    · rw [fired]
      obtain ⟨kernel, offers⟩ := happens.offers
      exact tracks.fire finishes determinateOther alike
        (determinate.recorded earlier undisturbedBefore issuedBefore) offers

end Network
end MoveMachine
