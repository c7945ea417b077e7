import MoveMachine.Proofs.Network.History
import MoveMachine.Proofs.Interconnect

/-!
# The account of a history

From a start in which every buffer and every manager is empty, the contents of
the network and its history determine each other (`Network.Account`):

* a manager has applied, and still holds, exactly the instructions issued that
  concern it, in the order of issue;
* the window of an input has one slot for each instruction applied to it;
* the packets that left an output pair the first values of its kernel with the
  first destinations, and the rest is still in the output;
* the packets sent on a route are those that arrived, followed by those in
  flight;
* on the slots of an input that belong to one sender, the packets that arrived
  are written from the oldest slot on.

Every event keeps the account (`Network.Account.step`), so it holds along every
history (`Network.Evolves.account`).
-/

set_option autoImplicit false

namespace MoveMachine

/-! ## Slots and instructions -/

namespace Slot

@[simp] theorem asOpened_arrived (sender : Address) (value : Word) :
    (arrived sender value).asOpened = .awaiting sender := rfl

/-- A slot that an instruction opens is as it was opened. -/
@[simp] theorem asOpened_slot (instruction : Instruction) :
    instruction.slot.asOpened = instruction.slot := by
  cases instruction with
  | move source destination =>
    cases opened : source.registration <;> simp [Instruction.slot, ofRegistration, opened, asOpened]
  | immediate value destination => rfl
  | jump target => rfl

/-- A slot that an instruction opens belongs to a sender only as an open slot. -/
theorem slot_eq_awaiting_of_isFrom {instruction : Instruction} {sender : Address}
    (belongs : instruction.slot.isFrom sender = true) : instruction.slot = .awaiting sender := by
  simpa [isFrom] using belongs

@[simp] theorem isFrom_awaiting (sender other : Address) :
    (awaiting sender).isFrom other = decide (sender = other) := by
  simp [isFrom, asOpened, Bool.beq_eq_decide_eq]

@[simp] theorem isFrom_arrived (sender other : Address) (value : Word) :
    (arrived sender value).isFrom other = decide (sender = other) := by
  simp [isFrom, asOpened, Bool.beq_eq_decide_eq]

/-- A slot that holds a value awaits none. -/
theorem isOpen_of_value? {slot : Slot} {value : Word} (holds : slot.value? = some value) :
    slot.isOpen = false := by
  cases slot <;> simp [value?, isOpen] at *

end Slot

namespace Instruction

theorem goesTo_iff {instruction : Instruction} {input : Address} :
    instruction.goesTo input = true ↔ input.isNull = false ∧ instruction.destination = input := by
  simp [goesTo]

theorem comesFrom_move_iff {source destination output : Address} :
    (move source destination).comesFrom output = true ↔
      output.isNull = false ∧ source = output := by
  simp [comesFrom]

/-- A jump goes nowhere. -/
theorem not_goesTo_jump (target : Word) (input : Address) :
    ¬(jump target).goesTo input = true := by
  rw [goesTo_iff]
  rintro ⟨real, isNull⟩
  rw [← isNull] at real
  cases real

/-- The input managers that an instruction concerns are those of the inputs it goes to. -/
theorem concerns_input_iff {instruction : Instruction} {unit : UInt8} :
    instruction.concerns (unit, .input) = true ↔
      ∃ input : Address, input.unit = unit ∧ instruction.goesTo input = true := by
  cases instruction with
  | move source destination =>
    by_cases here : destination.unit = unit ∧ destination.isNull = false
    · simp only [concerns, Effect.of?, here, and_self, if_true, Option.isSome_some, true_iff]
      exact ⟨destination, here.1, by simp [goesTo, Instruction.destination, here.2]⟩
    · simp only [concerns, Effect.of?, here, if_false, Option.isSome_none, Bool.false_eq_true,
        false_iff]
      rintro ⟨input, own, goes⟩
      obtain ⟨real, rfl⟩ := goesTo_iff.mp goes
      exact here ⟨own, real⟩
  | immediate value destination =>
    by_cases here : destination.unit = unit ∧ destination.isNull = false
    · simp only [concerns, Effect.of?, here, and_self, if_true, Option.isSome_some, true_iff]
      exact ⟨destination, here.1, by simp [goesTo, Instruction.destination, here.2]⟩
    · simp only [concerns, Effect.of?, here, if_false, Option.isSome_none, Bool.false_eq_true,
        false_iff]
      rintro ⟨input, own, goes⟩
      obtain ⟨real, rfl⟩ := goesTo_iff.mp goes
      exact here ⟨own, real⟩
  | jump target =>
    simp only [concerns, Effect.of?, Option.isSome_none, Bool.false_eq_true, false_iff]
    rintro ⟨input, -, goes⟩
    exact not_goesTo_jump target input goes

/-- The output managers that an instruction concerns are those of the output it comes from. -/
theorem concerns_output_iff {instruction : Instruction} {unit : UInt8} :
    instruction.concerns (unit, .output) = true ↔
      ∃ output : Address, output.unit = unit ∧ instruction.comesFrom output = true := by
  cases instruction with
  | move source destination =>
    by_cases here : source.unit = unit ∧ source.isNull = false
    · simp only [concerns, Effect.of?, here, and_self, if_true, Option.isSome_some, true_iff]
      exact ⟨source, here.1, by simp [comesFrom, here.2]⟩
    · simp only [concerns, Effect.of?, here, if_false, Option.isSome_none, Bool.false_eq_true,
        false_iff]
      rintro ⟨output, own, comes⟩
      obtain ⟨real, rfl⟩ := comesFrom_move_iff.mp comes
      exact here ⟨own, real⟩
  | immediate value destination => simp [concerns, Effect.of?, comesFrom]
  | jump target => simp [concerns, Effect.of?, comesFrom]

/-- An instruction goes to one input at most. -/
theorem goesTo_unique {instruction : Instruction} {input other : Address}
    (goes : instruction.goesTo input = true) :
    instruction.goesTo other = decide (other = input) := by
  obtain ⟨real, rfl⟩ := goesTo_iff.mp goes
  by_cases same : other = instruction.destination
  · subst same
    simp [goesTo, real]
  · simp [goesTo, same, Ne.symm same]

theorem comesFrom_unique {instruction : Instruction} {output other : Address}
    (comes : instruction.comesFrom output = true) :
    instruction.comesFrom other = decide (other = output) := by
  cases instruction with
  | move source destination =>
    obtain ⟨real, rfl⟩ := comesFrom_move_iff.mp comes
    by_cases same : other = source
    · subst same
      simp [comesFrom, real]
    · simp [comesFrom, same, Ne.symm same]
  | immediate value destination => simp [comesFrom] at comes
  | jump target => simp [comesFrom] at comes

end Instruction

namespace Network

/-- A network in which nothing has happened yet. -/
structure Blank (network : Network) : Prop where
  slots : ∀ input, network.slots input = []
  values : ∀ output, network.values output = []
  destinations : ∀ output, network.destinations output = []
  pending : ∀ post, network.pending post = none
  inbox : ∀ post, network.inbox post = []
  results : network.shared.results = #[]
  inFlight : network.shared.interconnect.inFlight = []
  delivered : network.shared.interconnect.delivered = 0
  discarded : network.shared.interconnect.discarded = 0
  pc : network.pc = 0
  halted : network.halted = false
  issued : network.issued = 0

/-- The contents of a network, derived from its history. -/
structure Account (history : History) (network : Network) : Prop where
  /-- A manager has applied or still holds what was issued to it. -/
  managers : ∀ post,
    history.applied post ++ network.held post = history.issued.filter (·.concerns post)
  /-- The window of an input has one slot for each instruction applied to it. -/
  windows : ∀ input, (window history network input).map Slot.asOpened =
    (history.opened input).map Instruction.slot
  /-- The values of a kernel have left their output or are still in it. -/
  values : ∀ output, history.produced output =
    (history.sentFrom output).map Packet.value ++ network.values output
  /-- The destinations of an output have been used or are still in it. -/
  destinations : ∀ output, (history.directed output).map Instruction.destination =
    (history.sentFrom output).map Packet.destination ++ network.destinations output
  /-- The packets sent on a route have arrived or are still in flight. -/
  routes : ∀ output input, input.isNull = false →
    (history.sentFrom output).filter (·.destination = input) =
      history.arrivedOn (output, input) ++
        network.shared.interconnect.inFlight.filter (·.route = (output, input))
  /-- The packets that arrived on a route fill the oldest slots of their sender. -/
  fills : ∀ output input, ∃ missing,
    (window history network input).filter (·.isFrom output) =
      (history.arrivedOn (output, input)).map (fun packet => .arrived output packet.value) ++
        List.replicate missing (.awaiting output)
  /-- No slot is retired before its value has come. -/
  retired : ∀ entry ∈ history.retired, entry.2.isOpen = false
  /-- Packets without a destination do not travel. -/
  flying : ∀ packet ∈ network.shared.interconnect.inFlight, packet.destination.isNull = false
  delivered : network.shared.interconnect.delivered = history.arrived.length
  discarded : network.shared.interconnect.discarded =
    history.sent.countP (·.destination.isNull)
  /-- Every packet sent has arrived, was dropped, or is in flight. -/
  packets : history.sent.length = network.shared.interconnect.delivered +
    network.shared.interconnect.discarded + network.shared.interconnect.inFlight.length
  issued : network.issued = history.issued.length

variable {program : List Instruction} {depth : Nat} {history : History} {network after : Network}
  {event : Event}

theorem Blank.account (blank : network.Blank) : Account [] network where
  managers post := by
    simp [History.applied, History.issued, held, blank.pending, blank.inbox]
  windows input := by
    simp [window, History.retiredAt, History.retired, History.opened, History.applied, blank.slots]
  values output := by simp [History.produced, History.sentFrom, History.sent, blank.values]
  destinations output := by
    simp [History.directed, History.applied, History.sentFrom, History.sent, blank.destinations]
  routes output input _ := by
    simp [History.sentFrom, History.sent, History.arrivedOn, History.arrived, blank.inFlight]
  fills output input := by
    refine ⟨0, ?_⟩
    simp [window, History.retiredAt, History.retired, History.arrivedOn, History.arrived,
      blank.slots]
  retired := by simp [History.retired]
  flying := by simp [blank.inFlight]
  delivered := by simp [History.arrived, blank.delivered]
  discarded := by simp [History.sent, blank.discarded]
  packets := by simp [History.sent, blank.delivered, blank.discarded, blank.inFlight]
  issued := by simp [History.issued, blank.issued]

/-! ## What one event keeps -/

/-- The managers take over what is issued and apply it in order. -/
theorem managers_step (happens : Step program depth network event after)
    (before : ∀ post,
      history.applied post ++ network.held post = history.issued.filter (·.concerns post))
    (post : UInt8 × Side) :
    History.applied (history ++ [event]) post ++ after.held post =
      (History.issued (history ++ [event])).filter (·.concerns post) := by
  have earlier := before post
  cases happens with
  | @issue instruction =>
    by_cases concerned : instruction.concerns post = true
    · simp [held, concerned, ← earlier]
    · simp [held, concerned, ← earlier]
  | @fetch here instruction later free waiting =>
    by_cases same : post = here
    · subst same
      simp [held, free, waiting, ← earlier]
    · simp [held, same, ← earlier]
  | @openSlot unit instruction input holds =>
    by_cases same : post = (unit, .input)
    · subst same
      simp [held, holds, ← earlier]
    · simp [held, same, Ne.symm same, ← earlier]
  | @direct unit instruction output holds =>
    by_cases same : post = (unit, .output)
    · subst same
      simp [held, holds, ← earlier]
    · simp [held, same, Ne.symm same, ← earlier]
  | halt | clear | fire | fail | send | arrive | write => simp [held, ← earlier]

/-- What an event can do to the window of one input. -/
inductive WindowStep (history : History) (network : Network) (event : Event) (after : Network)
    (input : Address) : Prop where
  /-- Nothing is opened or filled. -/
  | same (window : window (history ++ [event]) after input = window history network input)
      (opened : History.opened (history ++ [event]) input = history.opened input)
      (arrived : ∀ sender, History.arrivedOn (history ++ [event]) (sender, input) =
        history.arrivedOn (sender, input))
  /-- An instruction opens a slot behind all others. -/
  | opens (instruction : Instruction)
      (window : window (history ++ [event]) after input =
        window history network input ++ [instruction.slot])
      (opened : History.opened (history ++ [event]) input = history.opened input ++ [instruction])
      (arrived : ∀ sender, History.arrivedOn (history ++ [event]) (sender, input) =
        history.arrivedOn (sender, input))
  /-- A packet fills the oldest slot that awaits its sender. -/
  | fills (packet : Packet) (older younger : List Slot)
      (before : network.slots input = older ++ .awaiting packet.sender :: younger)
      (oldest : Slot.awaiting packet.sender ∉ older)
      (window : window (history ++ [event]) after input =
        history.retiredAt input ++ (older ++ .arrived packet.sender packet.value :: younger))
      (opened : History.opened (history ++ [event]) input = history.opened input)
      (arrived : ∀ sender, History.arrivedOn (history ++ [event]) (sender, input) =
        history.arrivedOn (sender, input) ++ if sender = packet.sender then [packet] else [])

theorem windowStep (history : History) (happens : Step program depth network event after)
    (input : Address) :
    WindowStep history network event after input := by
  cases happens with
  | issue | halt | fetch | direct | send | write =>
    refine .same ?_ ?_ ?_ <;>
      simp [window, History.retiredAt, History.opened, History.arrivedOn]
  | @openSlot unit instruction target holds own goes room =>
    subst own
    by_cases here : input = target
    · subst here
      refine .opens instruction ?_ ?_ ?_ <;>
        simp [window, History.retiredAt, History.opened, History.arrivedOn, goes]
    · refine .same ?_ ?_ ?_
      · simp [window, History.retiredAt, here]
      · have elsewhere : instruction.goesTo input = false := by
          rw [Instruction.goesTo_unique goes]
          simpa using here
        simp only [History.opened, History.applied_append, History.applied_singleton,
          Event.applied, List.filter_append]
        split <;> simp [elsewhere]
      · simp [History.arrivedOn]
  | @clear target younger front =>
    refine .same ?_ ?_ ?_
    · by_cases here : input = target
      · subst here
        simp [window, History.retiredAt, front]
      · simp [window, History.retiredAt, here, Ne.symm here]
    · simp [History.opened]
    · simp [History.arrivedOn]
  | fire present awaits room heads | fail present awaits room heads =>
    refine .same ?_ ?_ ?_
    · simp only [window, History.retiredAt, History.retired_append, History.retired_singleton,
        Event.retired, List.filter_append, List.map_append, List.append_assoc]
      rw [taken_append_retire awaits.nodup heads input]
    · simp [History.opened]
    · simp [History.arrivedOn]
  | @arrive packet before after filled flying first fills =>
    by_cases here : input = packet.destination
    · subst here
      obtain ⟨older, younger, slots, oldest, rfl⟩ := InputBuffer.fillOldest_eq_some fills
      refine .fills packet older younger slots oldest ?_ ?_ ?_
      · simp [window, History.retiredAt]
      · simp [History.opened]
      · intro sender
        by_cases same : sender = packet.sender
        · simp [History.arrivedOn, Packet.route, same]
        · simp [History.arrivedOn, Packet.route, same, Ne.symm same]
    · refine .same ?_ ?_ ?_
      · simp [window, History.retiredAt, here]
      · simp [History.opened]
      · simp [History.arrivedOn, Packet.route, Ne.symm here]

theorem windows_step (happens : Step program depth network event after) (input : Address)
    (before : (window history network input).map Slot.asOpened =
      (history.opened input).map Instruction.slot) :
    (window (history ++ [event]) after input).map Slot.asOpened =
      (History.opened (history ++ [event]) input).map Instruction.slot := by
  cases windowStep history happens input with
  | same window opened => rw [window, opened, before]
  | opens instruction window opened => simp [window, opened, before]
  | fills packet older younger slots oldest window opened =>
    rw [window, opened, ← before, Network.window, slots]
    simp [Slot.asOpened]

/-- A list that consists of values and then of copies of another splits in one way only at the
first copy. -/
theorem split_at_first_copy {α : Type} {copy : α} {front rest values : List α} {count : Nat}
    (split : front ++ copy :: rest = values ++ List.replicate count copy) (notFront : copy ∉ front)
    (notValue : copy ∉ values) : front = values ∧ rest = List.replicate (count - 1) copy := by
  induction front generalizing values with
  | nil =>
    cases values with
    | nil =>
      cases count with
      | zero => simp at split
      | succ count => simpa [List.replicate_succ] using split
    | cons value values =>
      simp only [List.nil_append, List.cons_append, List.cons.injEq] at split
      exact absurd (split.1 ▸ List.mem_cons_self) notValue
  | cons first front ih =>
    cases values with
    | nil =>
      cases count with
      | zero => simp at split
      | succ count =>
        simp only [List.cons_append, List.nil_append, List.replicate_succ, List.cons.injEq] at split
        exact absurd (split.1 ▸ List.mem_cons_self) notFront
    | cons value values =>
      simp only [List.cons_append, List.cons.injEq] at split
      obtain ⟨rfl, split⟩ := split
      obtain ⟨rfl, rfl⟩ := ih split (fun member => notFront (List.mem_cons_of_mem _ member))
        (fun member => notValue (List.mem_cons_of_mem _ member))
      exact ⟨rfl, rfl⟩

theorem fills_step (happens : Step program depth network event after) (output input : Address)
    (retired : ∀ entry ∈ history.retired, entry.2.isOpen = false)
    (before : ∃ missing, (window history network input).filter (·.isFrom output) =
      (history.arrivedOn (output, input)).map (fun packet => .arrived output packet.value) ++
        List.replicate missing (.awaiting output)) :
    ∃ missing, (window (history ++ [event]) after input).filter (·.isFrom output) =
      (History.arrivedOn (history ++ [event]) (output, input)).map
          (fun packet => .arrived output packet.value) ++
        List.replicate missing (.awaiting output) := by
  obtain ⟨missing, before⟩ := before
  cases windowStep history happens input with
  | same window opened arrived => exact ⟨missing, by rw [window, arrived, before]⟩
  | opens instruction window opened arrived =>
    rw [window, arrived, List.filter_append, before]
    cases belongs : instruction.slot.isFrom output with
    | false => exact ⟨missing, by simp [belongs]⟩
    | true =>
      have fresh := Slot.slot_eq_awaiting_of_isFrom belongs
      refine ⟨missing + 1, ?_⟩
      rw [List.append_assoc, fresh, List.replicate_succ']
      simp
  | fills packet older younger slots oldest window opened arrived =>
    rw [window, arrived]
    rw [Network.window, slots] at before
    by_cases same : output = packet.sender
    · subst same
      simp only [List.filter_append, List.filter_cons, Slot.isFrom_awaiting, decide_true, if_true]
        at before
      rw [← List.append_assoc] at before
      have notFront : Slot.awaiting packet.sender ∉
          (history.retiredAt input).filter (·.isFrom packet.sender) ++
            older.filter (·.isFrom packet.sender) := by
        rw [List.mem_append]
        rintro (inRetired | inOlder)
        · obtain ⟨entry, member, isThis⟩ := List.mem_map.mp (List.mem_filter.mp inRetired).1
          have closed := retired entry (List.mem_filter.mp member).1
          rw [isThis] at closed
          simp [Slot.isOpen] at closed
        · exact oldest (List.mem_filter.mp inOlder).1
      have notValue : Slot.awaiting packet.sender ∉
          (history.arrivedOn (packet.sender, input)).map
            (fun packet' => Slot.arrived packet.sender packet'.value) := by
        simp
      obtain ⟨front, rest⟩ := split_at_first_copy before notFront notValue
      refine ⟨missing - 1, ?_⟩
      simp only [List.filter_append, List.filter_cons, Slot.isFrom_arrived, decide_true, if_true]
      rw [← List.append_assoc, front, rest]
      simp
    · have apart : ¬packet.sender = output := fun equal => same equal.symm
      refine ⟨missing, ?_⟩
      simpa [apart, same] using before

theorem values_step (happens : Step program depth network event after) (output : Address)
    (before : history.produced output =
      (history.sentFrom output).map Packet.value ++ network.values output) :
    History.produced (history ++ [event]) output =
      (History.sentFrom (history ++ [event]) output).map Packet.value ++ after.values output := by
  cases happens with
  | issue | halt | fetch | openSlot | direct | clear | fail | arrive | write =>
    simp [History.sentFrom, before]
  | @fire unit =>
    by_cases here : output = ⟨unit, Bank.result⟩
    · subst here
      simp [History.sentFrom, before]
    · simp [History.sentFrom, before, here, Ne.symm here]
  | @send sender destination value values destinations interconnect first =>
    by_cases here : output = sender
    · subst here
      simp [History.sentFrom, before, first]
    · simp [History.sentFrom, before, here, Ne.symm here]

theorem destinations_step (happens : Step program depth network event after) (output : Address)
    (before : (history.directed output).map Instruction.destination =
      (history.sentFrom output).map Packet.destination ++ network.destinations output) :
    (History.directed (history ++ [event]) output).map Instruction.destination =
      (History.sentFrom (history ++ [event]) output).map Packet.destination ++
        after.destinations output := by
  cases happens with
  | issue | halt | fetch | openSlot | clear | fire | fail | arrive | write =>
    simpa [History.directed, History.sentFrom] using before
  | @direct unit instruction sender holds own comes =>
    subst own
    by_cases here : output = sender
    · subst here
      simp [before, History.directed, History.sentFrom, comes] at *
    · have elsewhere : instruction.comesFrom output = false := by
        rw [Instruction.comesFrom_unique comes]
        simpa using here
      have unchanged : History.directed (history ++ [.apply (sender.unit, .output) instruction])
          output = history.directed output := by
        simp only [History.directed, History.applied_append, History.applied_singleton,
          Event.applied, List.filter_append]
        split <;> simp [elsewhere]
      simp [unchanged, before, History.sentFrom, here]
  | @send sender destination value values destinations interconnect first tag =>
    by_cases here : output = sender
    · subst here
      simpa [History.directed, History.sentFrom, tag] using before
    · simpa [History.directed, History.sentFrom, here, Ne.symm here] using before

theorem routes_step (happens : Step program depth network event after) (output input : Address)
    (real : input.isNull = false)
    (before : (history.sentFrom output).filter (·.destination = input) =
      history.arrivedOn (output, input) ++
        network.shared.interconnect.inFlight.filter (·.route = (output, input))) :
    (History.sentFrom (history ++ [event]) output).filter (·.destination = input) =
      History.arrivedOn (history ++ [event]) (output, input) ++
        after.shared.interconnect.inFlight.filter (·.route = (output, input)) := by
  cases happens with
  | issue | halt | fetch | openSlot | direct | clear | fire | fail | write =>
    simpa [History.sentFrom, History.arrivedOn] using before
  | @send sender destination value values destinations interconnect first tag accepts sends =>
    rcases Interconnect.send_cases sends with ⟨isNull, rfl⟩ | ⟨-, -, rfl⟩
    · have elsewhere : destination ≠ input := by
        rintro rfl
        rw [real] at isNull
        exact absurd isNull (by decide)
      by_cases leaves : sender = output <;>
        simpa [History.sentFrom, History.arrivedOn, leaves, elsewhere] using before
    · by_cases here : sender = output ∧ destination = input
      · obtain ⟨rfl, rfl⟩ := here
        simp [History.sentFrom, History.arrivedOn, Packet.route] at *
        simp [before]
      · by_cases leaves : sender = output
        · have elsewhere : destination ≠ input := fun reaches => here ⟨leaves, reaches⟩
          simpa [History.sentFrom, History.arrivedOn, Packet.route, leaves, elsewhere] using before
        · simpa [History.sentFrom, History.arrivedOn, Packet.route, leaves] using before
  | @arrive packet older younger filled flying first =>
    rw [flying] at before
    by_cases here : packet.route = (output, input)
    · have noneBefore : older.filter (·.route = (output, input)) = [] := by
        refine List.filter_eq_nil_iff.mpr fun other member => ?_
        simp only [decide_eq_true_eq]
        intro same
        exact first (List.mem_map.mpr ⟨other, member, same.trans here.symm⟩)
      simpa [History.sentFrom, History.arrivedOn, here, noneBefore] using before
    · simpa [History.sentFrom, History.arrivedOn, here] using before

theorem retired_step (happens : Step program depth network event after)
    (before : ∀ entry ∈ history.retired, entry.2.isOpen = false) :
    ∀ entry ∈ History.retired (history ++ [event]), entry.2.isOpen = false := by
  have taken_closed {taken : List (UInt8 × Slot)} {words : List Word} {unit : UInt8}
      (holds : taken.map (·.2.value?) = words.map some) :
      ∀ entry ∈ taken.map fun entry => ((⟨unit, entry.1⟩ : Address), entry.2),
        entry.2.isOpen = false := by
    intro entry member
    obtain ⟨port, inTaken, rfl⟩ := List.mem_map.mp member
    obtain ⟨value, isValue⟩ := exists_value_of_holds holds inTaken
    exact Slot.isOpen_of_value? isValue
  intro entry member
  rw [History.retired_append, List.mem_append, History.retired_singleton] at member
  rcases member with earlier | now
  · exact before entry earlier
  · cases happens with
    | issue | halt | fetch | openSlot | direct | send | arrive | write => simp at now
    | clear =>
      obtain rfl := List.mem_singleton.mp now
      rfl
    | fire present awaits room heads holds => exact taken_closed holds entry now
    | fail present awaits room heads holds => exact taken_closed holds entry now

theorem flying_step (happens : Step program depth network event after)
    (before : ∀ packet ∈ network.shared.interconnect.inFlight,
      packet.destination.isNull = false) :
    ∀ packet ∈ after.shared.interconnect.inFlight, packet.destination.isNull = false := by
  intro packet member
  cases happens with
  | issue | halt | fetch | openSlot | direct | clear | fire | fail | write =>
    exact before packet member
  | send first tag accepts sends =>
    rcases Interconnect.send_cases sends with ⟨-, rfl⟩ | ⟨real, -, rfl⟩
    · exact before packet member
    · rcases List.mem_append.mp member with earlier | now
      · exact before packet earlier
      · obtain rfl := List.mem_singleton.mp now
        exact real
  | arrive flying =>
    refine before packet ?_
    rw [flying]
    rcases List.mem_append.mp member with older | younger
    · exact List.mem_append_left _ older
    · exact List.mem_append_right _ (List.mem_cons_of_mem _ younger)

/-- Every event keeps the account. -/
theorem Account.step (account : Account history network)
    (happens : Step program depth network event after) : Account (history ++ [event]) after where
  managers := managers_step happens account.managers
  windows input := windows_step happens input (account.windows input)
  values output := values_step happens output (account.values output)
  destinations output := destinations_step happens output (account.destinations output)
  routes output input real :=
    routes_step happens output input real (account.routes output input real)
  fills output input := fills_step happens output input account.retired (account.fills output input)
  retired := retired_step happens account.retired
  flying := flying_step happens account.flying
  delivered := by
    have before := account.delivered
    cases happens with
    | issue | halt | fetch | openSlot | direct | clear | fire | fail | arrive | write =>
      simpa using before
    | send first tag accepts sends =>
      rcases Interconnect.send_cases sends with ⟨-, rfl⟩ | ⟨-, -, rfl⟩ <;> simpa using before
  discarded := by
    have before := account.discarded
    cases happens with
    | issue | halt | fetch | openSlot | direct | clear | fire | fail | arrive | write =>
      simpa using before
    | send first tag accepts sends =>
      rcases Interconnect.send_cases sends with ⟨isNull, rfl⟩ | ⟨isNull, -, rfl⟩ <;>
        simpa [isNull] using before
  packets := by
    have before := account.packets
    cases happens with
    | issue | halt | fetch | openSlot | direct | clear | fire | fail | write => simpa using before
    | send first tag accepts sends =>
      rcases Interconnect.send_cases sends with ⟨-, rfl⟩ | ⟨-, -, rfl⟩ <;> simp [before] <;> omega
    | arrive flying =>
      simp [before, flying]
      omega
  issued := by
    have before := account.issued
    cases happens <;> simpa using before

/-- A history from a blank start accounts for the network that it leads to. -/
theorem Evolves.account {start : Network} (blank : start.Blank)
    (evolves : Evolves program depth start history network) : Account history network := by
  induction evolves with
  | start => exact blank.account
  | step _ happens ih => exact ih.step happens

/-- Whether a network comes from a blank one. -/
def Reachable (program : List Instruction) (depth : Nat) (network : Network) : Prop :=
  ∃ start history, start.Blank ∧ Evolves program depth start history network

theorem Reachable.trans (reachable : network.Reachable program depth)
    (evolves : Evolves program depth network history after) : after.Reachable program depth := by
  obtain ⟨start, earlier, blank, evolvesBefore⟩ := reachable
  exact ⟨start, earlier ++ history, blank, evolvesBefore.trans evolves⟩

/-- The room of the interconnect stays as it is. -/
theorem Step.capacity (happens : Step program depth network event after) :
    after.shared.interconnect.capacity = network.shared.interconnect.capacity := by
  cases happens with
  | send first tag accepts sends =>
    rcases Interconnect.send_cases sends with ⟨-, rfl⟩ | ⟨-, -, rfl⟩ <;> rfl
  | issue | halt | fetch | openSlot | direct | clear | fire | fail | arrive | write => rfl

theorem Evolves.capacity {start : Network}
    (evolves : Evolves program depth start history network) :
    network.shared.interconnect.capacity = start.shared.interconnect.capacity := by
  induction evolves with
  | start => rfl
  | step _ happens ih => exact happens.capacity.trans ih

/-- Only instructions of the program are issued. -/
theorem Evolves.issued_mem {start : Network}
    (evolves : Evolves program depth start history network) :
    ∀ instruction ∈ history.issued, instruction ∈ program := by
  induction evolves with
  | start => simp [History.issued]
  | step _ happens ih =>
    intro instruction member
    rw [History.issued_append, List.mem_append, History.issued_singleton] at member
    rcases member with earlier | now
    · exact ih instruction earlier
    · cases happens with
      | issue running next =>
        obtain rfl := List.mem_singleton.mp now
        exact List.mem_of_getElem? next
      | halt | fetch | openSlot | direct | clear | fire | fail | send | arrive | write =>
        simp at now

/-- A manager holds only instructions of the program that concern it. -/
theorem Evolves.held_mem {start : Network} (blank : start.Blank)
    (evolves : Evolves program depth start history network) {post : UInt8 × Side}
    {instruction : Instruction} (member : instruction ∈ network.held post) :
    instruction ∈ program ∧ instruction.concerns post = true := by
  have issued : instruction ∈ history.issued.filter (·.concerns post) := by
    rw [← (evolves.account blank).managers post]
    exact List.mem_append_right _ member
  obtain ⟨isIssued, concerned⟩ := List.mem_filter.mp issued
  exact ⟨evolves.issued_mem instruction isIssued, concerned⟩

/-- What an instruction that an output was directed by says: it is one of the program, and it moves
a value out of this output. -/
theorem Evolves.directed_mem {start : Network} (blank : start.Blank)
    (evolves : Evolves program depth start history network) {output : Address}
    {instruction : Instruction} (member : instruction ∈ history.directed output) :
    instruction ∈ program ∧ instruction.comesFrom output = true := by
  obtain ⟨isApplied, comes⟩ := List.mem_filter.mp member
  have issued : instruction ∈ history.issued.filter (·.concerns (output.unit, .output)) := by
    rw [← (evolves.account blank).managers]
    exact List.mem_append_left _ isApplied
  exact ⟨evolves.issued_mem instruction (List.mem_filter.mp issued).1, comes⟩

/-- A packet in flight was sent for a move of the program to its destination. -/
theorem Evolves.flying_mem {start : Network} (blank : start.Blank)
    (evolves : Evolves program depth start history network) {packet : Packet}
    (member : packet ∈ network.shared.interconnect.inFlight) :
    ∃ instruction ∈ program, instruction.goesTo packet.destination = true := by
  have account := evolves.account blank
  have real := account.flying packet member
  have sent : packet ∈ history.sentFrom packet.sender := by
    have onRoute : packet ∈ (history.sentFrom packet.sender).filter
        (·.destination = packet.destination) := by
      rw [account.routes packet.sender packet.destination real]
      exact List.mem_append_right _ (List.mem_filter.mpr ⟨member, by simp [Packet.route]⟩)
    exact (List.mem_filter.mp onRoute).1
  have directed : packet.destination ∈
      (history.directed packet.sender).map Instruction.destination := by
    rw [account.destinations]
    exact List.mem_append_left _ (List.mem_map_of_mem sent)
  obtain ⟨instruction, isDirected, destination⟩ := List.mem_map.mp directed
  refine ⟨instruction, (evolves.directed_mem blank isDirected).1, ?_⟩
  simp [Instruction.goesTo, destination, real]

end Network
end MoveMachine
