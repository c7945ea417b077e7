import MoveMachine.Proofs.Network.Account

/-!
# Chronicles

A chronicle (`Chronicle`) tells what was done at each place of the machine, and in
which order: which instructions a manager applied, which slots were opened in an
input, which values filled them and which slots retired, which values a kernel gave to
an output, where these were directed, and in which packets they left.

The events of a history have a chronicle (`Network.History.chronicle`). If they are
the work of one part of the machine, their chronicle can be told from the networks
before and after them, by what has gone from the front of a queue and what was added
at its end (`Network.Reachable.does_of_manager`,
`Network.Reachable.does_of_kernel`, `Network.Reachable.does_of_handing`), or by what
has come of the slots (`Network.Evolves.does_of_delivery`).
-/

set_option autoImplicit false

namespace MoveMachine

/-- What was done, by places. -/
@[ext]
structure Chronicle where
  /-- The instructions that the manager of a side of a unit applied. -/
  applied : UInt8 × Side → List Instruction
  /-- The slots opened in an input, as they were then. -/
  opened : Address → List Slot
  /-- The destinations given to an output. -/
  directed : Address → List Address
  /-- The slots retired from an input, as they were then. -/
  retired : Address → List Slot
  /-- The values that a kernel gave to an output. -/
  pushed : Address → List Word
  /-- The packets that left an output. -/
  departed : Address → List Packet
  /-- The values that filled slots, by their senders and inputs. -/
  filled : Address × Address → List Word

namespace Chronicle

/-- Nothing was done. -/
def nothing : Chronicle where
  applied _ := []
  opened _ := []
  directed _ := []
  retired _ := []
  pushed _ := []
  departed _ := []
  filled _ := []

/-- What was done first, and then what was done later. -/
instance : Append Chronicle where
  append first second := {
    applied := fun post => first.applied post ++ second.applied post
    opened := fun input => first.opened input ++ second.opened input
    directed := fun output => first.directed output ++ second.directed output
    retired := fun input => first.retired input ++ second.retired input
    pushed := fun output => first.pushed output ++ second.pushed output
    departed := fun output => first.departed output ++ second.departed output
    filled := fun route => first.filled route ++ second.filled route }

/-- What was done in several stages. -/
def join : List Chronicle → Chronicle
  | [] => nothing
  | first :: later => first ++ join later

theorem append_eq (first second : Chronicle) : first ++ second = {
    applied := fun post => first.applied post ++ second.applied post
    opened := fun input => first.opened input ++ second.opened input
    directed := fun output => first.directed output ++ second.directed output
    retired := fun input => first.retired input ++ second.retired input
    pushed := fun output => first.pushed output ++ second.pushed output
    departed := fun output => first.departed output ++ second.departed output
    filled := fun route => first.filled route ++ second.filled route } := rfl

@[simp] theorem append_nothing (chronicle : Chronicle) : chronicle ++ nothing = chronicle := by
  ext <;> simp [append_eq, nothing]

theorem append_assoc (first second third : Chronicle) :
    first ++ second ++ third = first ++ (second ++ third) := by
  ext <;> simp [append_eq]

@[simp] theorem join_append (stages later : List Chronicle) :
    join (stages ++ later) = join stages ++ join later := by
  induction stages with
  | nil => rfl
  | cons first rest ih => rw [List.cons_append, join, join, ih, append_assoc]

@[simp] theorem join_singleton (chronicle : Chronicle) : join [chronicle] = chronicle :=
  append_nothing chronicle

/-! ## Queues before and after -/

section Queues

variable {Item : Type}

/-- What has gone from the front of a queue. -/
def gone (before after : List Item) : List Item := before.take (before.length - after.length)

/-- What was added at the end of a queue. -/
def added (before after : List Item) : List Item := after.drop before.length

theorem gone_eq {before front after : List Item} (split : before = front ++ after) :
    gone before after = front := by
  simp [gone, split]

theorem added_eq {before more after : List Item} (split : after = before ++ more) :
    added before after = more := by
  simp [added, split]

@[simp] theorem gone_self (queue : List Item) : gone queue queue = [] := gone_eq rfl

@[simp] theorem added_self (queue : List Item) : added queue queue = [] :=
  added_eq (List.append_nil queue).symm

variable {condition : Prop} [Decidable condition]

/-- What has gone from a queue that is the same before and after unless a condition holds. -/
theorem gone_ite (before after same : List Item) :
    gone (if condition then before else same) (if condition then after else same) =
      if condition then gone before after else [] := by
  split
  · rfl
  · exact gone_self same

theorem added_ite (before after same : List Item) :
    added (if condition then before else same) (if condition then after else same) =
      if condition then added before after else [] := by
  split
  · rfl
  · exact added_self same

end Queues

/-- Packets of a sender with values and destinations. -/
def packets (sender : Address) (values : List Word) (destinations : List Address) : List Packet :=
  List.zipWith (⟨·, sender, ·⟩) values destinations

/-- Packets that all come from one output are known by their values and destinations. -/
theorem eq_packets {sender : Address} {sent : List Packet}
    (senders : ∀ packet ∈ sent, packet.sender = sender) :
    sent = packets sender (sent.map (·.value)) (sent.map (·.destination)) := by
  induction sent with
  | nil => rfl
  | cons packet later ih =>
    obtain ⟨here, rest⟩ := List.forall_mem_cons.mp senders
    subst here
    exact congrArg (packet :: ·) (ih rest)

end Chronicle

namespace Network

variable {program : List Instruction} {depth : Nat} {before after : Network} {events : History}

/-- What the events of a history did. -/
def History.chronicle (history : History) : Chronicle where
  applied := history.applied
  opened input := (history.opened input).map Instruction.slot
  directed output := (history.directed output).map Instruction.destination
  retired := history.retiredAt
  pushed := history.produced
  departed := history.sentFrom
  filled route := (history.arrivedOn route).map Packet.value

@[simp] theorem History.chronicle_append (history later : History) :
    History.chronicle (history ++ later) = history.chronicle ++ later.chronicle := by
  ext <;> simp [chronicle, Chronicle.append_eq, opened_append, directed_append, sentFrom_append,
    arrivedOn_append]

/-- Whether the events of a history did just what a chronicle says. -/
def History.Does (chronicle : Chronicle) (history : History) : Prop :=
  history.chronicle = chronicle

theorem History.Does.append {first second : Chronicle} {history later : History}
    (does : history.Does first) (doesLater : later.Does second) :
    History.Does (first ++ second) (history ++ later) := by
  rw [Does, History.chronicle_append, does, doesLater]

theorem History.Does.append_nothing {chronicle : Chronicle} {history later : History}
    (does : history.Does chronicle) (nothing : later.Does .nothing) :
    History.Does chronicle (history ++ later) := by
  have both := does.append nothing
  rwa [Chronicle.append_nothing] at both

/-- What goes on in the program and what comes from outside is not in a chronicle. -/
theorem History.Of.doesNothing {part : Part} (of : events.Of part)
    (manager : ∀ post, part ≠ .manager post) (kernel : ∀ unit, part ≠ .kernel unit)
    (handing : ∀ unit, part ≠ .handing unit) (delivery : part ≠ .delivery) :
    events.Does .nothing := by
  rw [History.Does]
  ext1
  all_goals funext place
  · exact of.applied (manager place)
  · exact congrArg (List.map Instruction.slot) (of.opened (manager _))
  · exact congrArg (List.map Instruction.destination) (of.directed (manager _))
  · exact of.retiredAt (kernel _)
  · exact of.produced (kernel _)
  · exact of.sentFrom (handing _)
  · exact congrArg (List.map Packet.value) (of.arrivedOn delivery place)

/-! ## Between two networks -/

/-- What a manager held and what was issued to it is what it has applied and what it holds. -/
theorem Reachable.held_append (reachable : before.Reachable program depth)
    (evolves : Evolves program depth before events after) (post : UInt8 × Side) :
    before.held post ++ events.issued.filter (·.concerns post) =
      events.applied post ++ after.held post := by
  obtain ⟨start, history, blank, earlier⟩ := reachable
  have first := (earlier.account blank).managers post
  have second := ((earlier.trans evolves).account blank).managers post
  rw [History.applied_append, History.issued_append, List.filter_append, ← first,
    List.append_assoc, List.append_assoc] at second
  exact (List.append_cancel_left second).symm

/-- The values in an output and those given to it have left it or are still in it. -/
theorem Reachable.values_append (reachable : before.Reachable program depth)
    (evolves : Evolves program depth before events after) (output : Address) :
    before.values output ++ events.produced output =
      (events.sentFrom output).map Packet.value ++ after.values output := by
  obtain ⟨start, history, blank, earlier⟩ := reachable
  have first := (earlier.account blank).values output
  have second := ((earlier.trans evolves).account blank).values output
  rw [History.produced_append, first, History.sentFrom_append, List.map_append, List.append_assoc,
    List.append_assoc] at second
  exact List.append_cancel_left second

theorem Reachable.destinations_append (reachable : before.Reachable program depth)
    (evolves : Evolves program depth before events after) (output : Address) :
    before.destinations output ++ (events.directed output).map Instruction.destination =
      (events.sentFrom output).map Packet.destination ++ after.destinations output := by
  obtain ⟨start, history, blank, earlier⟩ := reachable
  have first := (earlier.account blank).destinations output
  have second := ((earlier.trans evolves).account blank).destinations output
  rw [History.directed_append, List.map_append, first, History.sentFrom_append, List.map_append,
    List.append_assoc, List.append_assoc] at second
  exact List.append_cancel_left second

/-- As long as nothing arrives, the slots of an input and those opened in it have been retired or
are still there. -/
theorem Evolves.slots_append (evolves : Evolves program depth before events after)
    (quiet : events.arrived = []) (input : Address) :
    before.slots input ++ (events.opened input).map Instruction.slot =
      events.retiredAt input ++ after.slots input := by
  induction evolves with
  | start => simp [History.opened, History.applied, History.retiredAt, History.retired]
  | @step history network after event earlier happens ih =>
    rw [History.arrived_append, List.append_eq_nil_iff, History.arrived_singleton] at quiet
    have windows := ih quiet.1
    cases windowStep history happens input with
    | same window opened =>
      rw [opened, windows]
      exact window.symm
    | opens instruction window opened =>
      rw [opened, List.map_append, ← List.append_assoc, windows]
      exact window.symm
    | fills packet older younger slots oldest window opened arrived =>
      have none : History.arrived (history ++ [event]) = [] := by
        rw [History.arrived_append, History.arrived_singleton, quiet.1, quiet.2, List.append_nil]
      have arrives := arrived packet.sender
      rw [History.arrivedOn, none, if_pos rfl] at arrives
      simp at arrives

/-! ## The work of one part -/

/-- What a manager has done shows in what it holds, in its inputs and in its outputs. -/
theorem Reachable.does_of_manager {post : UInt8 × Side}
    (reachable : before.Reachable program depth)
    (evolves : Evolves program depth before events after) (of : events.Of (.manager post)) :
    events.Does { Chronicle.nothing with
      applied := fun post => Chronicle.gone (before.held post) (after.held post)
      opened := fun input => Chronicle.added (before.slots input) (after.slots input)
      directed := fun output =>
        Chronicle.added (before.destinations output) (after.destinations output) } := by
  have issued := of.issued (by simp)
  have arrived := of.arrived (by simp)
  rw [History.Does]
  ext1
  all_goals funext place
  · have held := reachable.held_append evolves place
    rw [issued, List.filter_nil, List.append_nil] at held
    exact (Chronicle.gone_eq held).symm
  · have slots := evolves.slots_append arrived place
    rw [of.retiredAt (by simp), List.nil_append] at slots
    exact (Chronicle.added_eq slots.symm).symm
  · have destinations := reachable.destinations_append evolves place
    rw [of.sentFrom (by simp), List.map_nil, List.nil_append] at destinations
    exact (Chronicle.added_eq destinations.symm).symm
  · exact of.retiredAt (by simp)
  · exact of.produced (by simp)
  · exact of.sentFrom (by simp)
  · exact congrArg (List.map Packet.value) (of.arrivedOn (by simp) place)

/-- What a kernel has done shows in its inputs and in its output. -/
theorem Reachable.does_of_kernel {unit : UInt8} (reachable : before.Reachable program depth)
    (evolves : Evolves program depth before events after) (of : events.Of (.kernel unit)) :
    events.Does { Chronicle.nothing with
      retired := fun input => Chronicle.gone (before.slots input) (after.slots input)
      pushed := fun output => Chronicle.added (before.values output) (after.values output) } := by
  have arrived := of.arrived (by simp)
  rw [History.Does]
  ext1
  all_goals funext place
  · exact of.applied (by simp)
  · exact congrArg (List.map Instruction.slot) (of.opened (by simp))
  · exact congrArg (List.map Instruction.destination) (of.directed (by simp))
  · have slots := evolves.slots_append arrived place
    rw [of.opened (by simp), List.map_nil, List.append_nil] at slots
    exact (Chronicle.gone_eq slots).symm
  · have values := reachable.values_append evolves place
    rw [of.sentFrom (by simp), List.map_nil, List.nil_append] at values
    exact (Chronicle.added_eq values.symm).symm
  · exact of.sentFrom (by simp)
  · exact congrArg (List.map Packet.value) (of.arrivedOn (by simp) place)

/-- What was handed over shows in the outputs. -/
theorem Reachable.does_of_handing {unit : UInt8} (reachable : before.Reachable program depth)
    (evolves : Evolves program depth before events after) (of : events.Of (.handing unit)) :
    events.Does { Chronicle.nothing with
      departed := fun output => Chronicle.packets output
        (Chronicle.gone (before.values output) (after.values output))
        (Chronicle.gone (before.destinations output) (after.destinations output)) } := by
  rw [History.Does]
  ext1
  all_goals funext place
  · exact of.applied (by simp)
  · exact congrArg (List.map Instruction.slot) (of.opened (by simp))
  · exact congrArg (List.map Instruction.destination) (of.directed (by simp))
  · exact of.retiredAt (by simp)
  · exact of.produced (by simp)
  · have values := reachable.values_append evolves place
    have destinations := reachable.destinations_append evolves place
    rw [of.produced (by simp), List.append_nil] at values
    rw [of.directed (by simp), List.map_nil, List.append_nil] at destinations
    have senders : ∀ packet ∈ events.sentFrom place, packet.sender = place := by
      intro packet member
      simpa using (List.mem_filter.mp member).2
    have sent := Chronicle.eq_packets senders
    rwa [← Chronicle.gone_eq values, ← Chronicle.gone_eq destinations] at sent
  · exact congrArg (List.map Packet.value) (of.arrivedOn (by simp) place)

/-- Whatever becomes later of the slots that arrivals have left, what has come by then is what came
with these arrivals and what has come since. -/
theorem Evolves.received (evolves : Evolves program depth before events after)
    (of : events.Of .delivery) (input : Address) {final : List Slot}
    (later : List.Forall₂ Slot.Becomes (after.slots input) final) :
    List.Forall₂ Slot.Becomes (before.slots input) final ∧
      ∀ sender, InputBuffer.received sender (before.slots input) final =
        (events.arrivedOn (sender, input)).map Packet.value ++
          InputBuffer.received sender (after.slots input) final := by
  -- the last arrival need not fill the youngest slot, so it is told apart by what comes after it
  induction evolves with
  | start => exact ⟨later, fun _ => rfl⟩
  | @step history network after event earlier happens ih =>
    obtain ⟨ofBefore, now⟩ := List.forall_mem_append.mp of
    have isArrival : event.part = .delivery := now event List.mem_cons_self
    cases happens with
    | issue | halt | fetch | openSlot | direct | clear | fire | fail | send | write =>
      cases isArrival
    | @arrive packet _ _ filled flying first fills =>
      by_cases here : input = packet.destination
      · subst here
        simp only [Function.update_self] at later ⊢
        obtain ⟨becomes, receives⟩ := InputBuffer.received_of_fillOldest fills later
        obtain ⟨becomesAll, receivesAll⟩ := ih ofBefore becomes
        refine ⟨becomesAll, fun sender => ?_⟩
        rw [receivesAll, receives, History.arrivedOn_append, List.map_append, List.append_assoc]
        by_cases same : packet.sender = sender <;>
          simp [History.arrivedOn, Packet.route, same]
      · simp only [Function.update_of_ne here] at later ⊢
        obtain ⟨becomesAll, receivesAll⟩ := ih ofBefore later
        refine ⟨becomesAll, fun sender => ?_⟩
        rw [receivesAll, History.arrivedOn_append]
        simp [History.arrivedOn, Packet.route, Ne.symm here]

/-- What has arrived shows in the inputs. -/
theorem Evolves.does_of_delivery (evolves : Evolves program depth before events after)
    (of : events.Of .delivery) :
    events.Does { Chronicle.nothing with
      filled := fun route =>
        InputBuffer.received route.1 (before.slots route.2) (after.slots route.2) } := by
  rw [History.Does]
  ext1
  all_goals funext place
  · exact of.applied (by simp)
  · exact congrArg (List.map Instruction.slot) (of.opened (by simp))
  · exact congrArg (List.map Instruction.destination) (of.directed (by simp))
  · exact of.retiredAt (by simp)
  · exact of.produced (by simp)
  · exact of.sentFrom (by simp)
  · obtain ⟨sender, input⟩ := place
    have same : List.Forall₂ Slot.Becomes (after.slots input) (after.slots input) :=
      List.forall₂_same.mpr fun slot _ => .same slot
    have receives := (evolves.received of input same).2 sender
    rw [InputBuffer.received_self, List.append_nil] at receives
    exact receives.symm

end Network
end MoveMachine
