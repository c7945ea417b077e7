import MoveMachine.Proofs.Contents
import MoveMachine.ProcessingUnit
import Mathlib.Data.List.Forall2

/-!
# What an interconnect does

A packet that is sent is dropped, or it is in flight behind all others, or it is
refused because there is no room (`Interconnect.send_cases`,
`Interconnect.send_eq_error_iff`).

A pass over the packets in flight takes some of them out, and the values of these
enter slots of their inputs one after the other (`Fills`). On every route the
packets that arrive are the oldest ones, and those that are held stay in their
order (`deliverAll_arrivals`). This needs nothing of the inputs, and it holds as
well for a pass that ends early because an input does not exist.

Which values have come from a sender into an input can be seen from its slots
before and after (`InputBuffer.received`). If an input is replaced at its own
address only (`LawfulEndpoints`), these are the values that arrived on the route,
in the order in which they did. So the inputs before and after a pass determine
what arrived on each route (`Fills.onRoute_unique`).
-/

set_option autoImplicit false

namespace MoveMachine

/-! ## Sending -/

namespace Interconnect

variable {interconnect sending : Interconnect} {packet : Packet} {fault : Fault}

/-- A packet that can be sent is dropped, or is in flight behind all others. -/
theorem send_cases (sends : interconnect.send packet = .ok sending) :
    packet.destination.isNull = true ∧
        sending = { interconnect with discarded := interconnect.discarded + 1 } ∨
      packet.destination.isNull = false ∧ interconnect.canSend = true ∧
        sending = { interconnect with inFlight := interconnect.inFlight ++ [packet] } := by
  cases isNull : packet.destination.isNull with
  | true =>
    simp only [Interconnect.send, Address.route, isNull, if_true, Except.ok.injEq] at sends
    exact .inl ⟨rfl, sends.symm⟩
  | false =>
    simp only [Interconnect.send, Address.route, isNull, Bool.false_eq_true, if_false] at sends
    split at sends
    · rename_i room
      exact .inr ⟨rfl, room, (Except.ok.inj sends).symm⟩
    · cases sends

/-- A packet is refused exactly if it has a destination and there is no room. -/
theorem send_eq_error_iff :
    interconnect.send packet = .error fault ↔
      packet.destination.isNull = false ∧ interconnect.capacity ≤ interconnect.inFlight.length ∧
        fault = .overflow .inFlight interconnect.capacity := by
  cases isNull : packet.destination.isNull with
  | true => simp [send, Address.route, isNull]
  | false =>
    by_cases room : interconnect.inFlight.length < interconnect.capacity
    · simp [send, Address.route, isNull, canSend, room, Nat.not_le.mpr room]
    · simp [send, Address.route, isNull, canSend, room, Nat.le_of_not_lt room, eq_comm]

end Interconnect

/-! ## Inputs by address -/

/-- A collection in which another state of the buffer at an address is seen there and nowhere
else. -/
class LawfulEndpoints (Collection : Type) [Endpoints Collection] : Prop where
  input?_setInput {collection : Collection} {address : Address} {old : InputBuffer}
    (found : Endpoints.input? collection address = some old) (buffer : InputBuffer)
    (other : Address) :
    Endpoints.input? (Endpoints.setInput collection address buffer) other =
      if other = address then some buffer else Endpoints.input? collection other

/-- Replacing what belongs to a key changes what is found for that key only. -/
theorem lookup_map_replace {Key Value : Type} [DecidableEq Key] (key : Key) (value : Value)
    (other : Key) (entries : List (Key × Value)) :
    (entries.map fun entry => if entry.1 = key then (key, value) else entry).lookup other =
      if other = key then (entries.lookup other).map fun _ => value
      else entries.lookup other := by
  induction entries with
  | nil => simp
  | cons entry later ih =>
    obtain ⟨first, kept⟩ := entry
    by_cases same : other = first
    · by_cases here : first = key <;> simp [same, here]
    · have apart : (other == first) = false := by simpa using same
      rw [List.map_cons, List.lookup_cons, List.lookup_cons, apart, ih]
      by_cases here : first = key
      · have differs : (other == key) = false := here ▸ apart
        simp [here, differs]
      · simp [here, apart]

instance : LawfulEndpoints InputTable where
  input?_setInput {table address old} found buffer other := by
    have present : table.entries.lookup address = some old := found
    refine (lookup_map_replace address buffer other table.entries).trans ?_
    by_cases same : other = address
    · simp [same, present]
    · rw [if_neg same, if_neg same]
      rfl

instance : LawfulEndpoints Bank where
  input?_setInput {bank address old} found buffer other := by
    obtain ⟨unit, index⟩ := address
    obtain ⟨otherUnit, otherIndex⟩ := other
    by_cases own : unit = bank.unit
    · subst own
      simp only [Endpoints.input?, Endpoints.setInput, if_true] at found ⊢
      rw [Bank.input?_setInput found buffer otherIndex]
      simp only [Bank.setInput, Address.mk.injEq]
      by_cases here : otherUnit = bank.unit <;> simp [here]
    · simp [Endpoints.input?, own] at found

/-- Changing the units with a number changes the unit that is found for it. -/
theorem unitNumbered?_alterUnit (alter : ProcessingUnit → ProcessingUnit)
    (keeps : ∀ unit, (alter unit).number = unit.number) (units : List ProcessingUnit)
    (number other : UInt8) :
    unitNumbered? (alterUnit number alter units) other =
      (unitNumbered? units other).map fun unit =>
        if other = number then alter unit else unit := by
  have same : ((fun unit : ProcessingUnit => unit.number == other) ∘
      fun unit => if unit.number = number then alter unit else unit) = (·.number == other) := by
    funext unit
    simp only [Function.comp_apply]
    split <;> simp [keeps]
  rw [unitNumbered?, alterUnit, List.find?_map, same]
  refine Option.map_congr fun unit found => ?_
  have isNumber : unit.number = other := by simpa using List.find?_some found
  rw [isNumber]

instance : LawfulEndpoints (List ProcessingUnit) where
  input?_setInput {units address old} found buffer other := by
    obtain ⟨number, index⟩ := address
    obtain ⟨otherNumber, otherIndex⟩ := other
    obtain ⟨unit, isUnit, isBuffer⟩ := Option.bind_eq_some_iff.mp found
    have altered := unitNumbered?_alterUnit
      (fun unit => { unit with buffers := unit.buffers.setInput index buffer })
      (fun _ => rfl) units number otherNumber
    simp only [Endpoints.input?, Endpoints.setInput, altered, Address.mk.injEq]
    by_cases here : otherNumber = number
    · subst here
      rw [isUnit]
      simpa using Bank.input?_setInput isBuffer buffer otherIndex
    · simp [here]

/-! ## Values entering slots -/

/-- Packets find their inputs and fill the oldest slots that await them, one after the other. -/
inductive Fills {Collection : Type} [Endpoints Collection] :
    Collection → List Packet → Collection → Prop where
  | nothing (endpoints : Collection) : Fills endpoints [] endpoints
  | next {endpoints after : Collection} {packet : Packet} {later : List Packet}
      {buffer filled : InputBuffer}
      (input : Endpoints.input? endpoints packet.destination = some buffer)
      (fills : buffer.fill packet.sender packet.value = .ok filled)
      (rest : Fills (Endpoints.setInput endpoints packet.destination filled) later after) :
      Fills endpoints (packet :: later) after

/-- What arrivals can make of a slot. -/
inductive Slot.Becomes : Slot → Slot → Prop where
  | same (slot : Slot) : Becomes slot slot
  | arrived (sender : Address) (value : Word) : Becomes (.awaiting sender) (.arrived sender value)

namespace InputBuffer

/-- The values that have come from a sender, seen from the slots before and after. -/
def received (sender : Address) : (before after : List Slot) → List Word
  | .awaiting expected :: before, .arrived _ value :: after =>
    if expected = sender then value :: received sender before after
    else received sender before after
  | _ :: before, _ :: after => received sender before after
  | _, _ => []

theorem received_cons_self (sender : Address) (slot : Slot) (before after : List Slot) :
    received sender (slot :: before) (slot :: after) = received sender before after := by
  cases slot <;> rfl

theorem received_self (sender : Address) (slots : List Slot) :
    received sender slots slots = [] := by
  induction slots with
  | nil => rfl
  | cons slot younger ih => rw [received_cons_self, ih]

variable {sender : Address} {value : Word} {slots filled after : List Slot}

/-- A value that enters a slot first comes before all that enter later from its sender. -/
theorem received_of_fillOldest (fills : fillOldest sender value slots = some filled)
    (later : List.Forall₂ Slot.Becomes filled after) :
    List.Forall₂ Slot.Becomes slots after ∧ ∀ other, received other slots after =
      (if sender = other then [value] else []) ++ received other filled after := by
  induction slots generalizing filled after with
  | nil => cases fills
  | cons slot younger ih =>
    rw [fillOldest] at fills
    split at fills
    · rename_i awaits
      obtain rfl := Option.some.inj fills
      subst awaits
      cases later with
      | cons first rest =>
        cases first
        refine ⟨.cons (.arrived sender value) rest, fun other => ?_⟩
        rw [received_cons_self, received]
        split <;> simp
    · rename_i differs
      obtain ⟨filledLater, fillsLater, rfl⟩ := Option.map_eq_some_iff.mp fills
      cases later with
      | cons first rest =>
        obtain ⟨becomes, receives⟩ := ih fillsLater rest
        refine ⟨.cons first becomes, fun other => ?_⟩
        cases first with
        | same => rw [received_cons_self, received_cons_self, receives]
        | arrived expected word =>
          -- at most one of the two values is from the sender in question
          have apart : sender ≠ expected := fun same => differs (same ▸ rfl)
          simp only [received, receives]
          by_cases here : expected = other
          · subst here
            simp [apart]
          · simp [here]

end InputBuffer

/-! ## Routes -/

/-- The packets of a route. -/
def onRoute (route : Address × Address) (packets : List Packet) : List Packet :=
  packets.filter (·.route = route)

@[simp] theorem onRoute_append (route : Address × Address) (packets others : List Packet) :
    onRoute route (packets ++ others) = onRoute route packets ++ onRoute route others :=
  List.filter_append packets others

/-- The packets of a route differ in their values only. -/
theorem onRoute_eq_map (sender destination : Address) (packets : List Packet) :
    onRoute (sender, destination) packets =
      ((onRoute (sender, destination) packets).map (·.value)).map (⟨·, sender, destination⟩) := by
  have same : ∀ packet ∈ onRoute (sender, destination) packets,
      (⟨packet.value, sender, destination⟩ : Packet) = packet := by
    intro packet member
    have isRoute : packet.route = (sender, destination) := by
      simpa using (List.mem_filter.mp member).2
    obtain ⟨rfl, rfl⟩ := Prod.mk.inj isRoute
    rfl
  rw [List.map_map]
  exact ((List.map_congr_left same).trans (List.map_id _)).symm

/-- Packets that agree on all routes are the same packets, in some order. -/
theorem perm_of_onRoute {packets others : List Packet}
    (agree : ∀ route, onRoute route packets = onRoute route others) : packets.Perm others := by
  rw [List.perm_iff_count]
  intro packet
  have counted (list : List Packet) :
      (onRoute packet.route list).count packet = list.count packet :=
    List.count_filter (by simp)
  rw [← counted packets, ← counted others, agree]

/-- If all packets on its route arrive later, a packet that is held is still the first there. -/
theorem onRoute_cons_of_held {packet : Packet} {later arrivals held : List Packet}
    (others : ∀ other ∈ arrivals, other.route ≠ packet.route)
    (split : ∀ route, onRoute route later = onRoute route arrivals ++ onRoute route held)
    (route : Address × Address) :
    onRoute route (packet :: later) =
      onRoute route arrivals ++ onRoute route (packet :: held) := by
  have rest := split route
  simp only [onRoute] at rest ⊢
  by_cases here : packet.route = route
  · have none : arrivals.filter (·.route = route) = [] :=
      List.filter_eq_nil_iff.mpr fun other member => by simpa [here] using others other member
    rw [none, List.nil_append] at rest ⊢
    simp [here, rest]
  · simp [here, rest]

namespace Fills

variable {Collection : Type} [Endpoints Collection] [LawfulEndpoints Collection]
  {endpoints after : Collection} {arrivals others : List Packet}

/-- What has arrived on a route can be seen from the slots of its input. -/
theorem onRoute_eq_received (fills : Fills endpoints arrivals after) {address : Address}
    {buffer : InputBuffer} (found : Endpoints.input? endpoints address = some buffer) :
    ∃ filled, Endpoints.input? after address = some filled ∧
      List.Forall₂ Slot.Becomes buffer.slots filled.slots ∧
      ∀ sender, (onRoute (sender, address) arrivals).map (·.value) =
        InputBuffer.received sender buffer.slots filled.slots := by
  induction fills generalizing buffer with
  | nothing endpoints =>
    refine ⟨buffer, found, List.forall₂_same.mpr fun slot _ => .same slot, fun sender => ?_⟩
    rw [InputBuffer.received_self]
    rfl
  | @next endpoints after packet later input filled isInput enters rest ih =>
    have replaced := LawfulEndpoints.input?_setInput isInput filled address
    by_cases here : address = packet.destination
    · subst here
      obtain rfl := Option.some.inj (isInput.symm.trans found)
      rw [if_pos rfl] at replaced
      obtain ⟨final, isFinal, becomes, receives⟩ := ih replaced
      rw [InputBuffer.fill] at enters
      split at enters
      · rename_i slots entersSlot
        obtain rfl := Except.ok.inj enters
        obtain ⟨becomesAll, receivesFirst⟩ :=
          InputBuffer.received_of_fillOldest entersSlot becomes
        refine ⟨final, isFinal, becomesAll, fun sender => ?_⟩
        rw [receivesFirst, ← receives]
        by_cases same : packet.sender = sender <;> simp [onRoute, Packet.route, same]
      · cases enters
    · rw [if_neg here, found] at replaced
      obtain ⟨final, isFinal, becomes, receives⟩ := ih replaced
      refine ⟨final, isFinal, becomes, fun sender => ?_⟩
      have apart : packet.route ≠ (sender, address) :=
        fun same => here (congrArg Prod.snd same).symm
      simpa [onRoute, apart] using receives sender

/-- Packets arrive in inputs that were there from the beginning. -/
theorem exists_input (fills : Fills endpoints arrivals after) :
    ∀ packet ∈ arrivals, (Endpoints.input? endpoints packet.destination).isSome = true := by
  induction fills with
  | nothing => nofun
  | @next endpoints after packet later input filled isInput _ rest ih =>
    refine List.forall_mem_cons.mpr ⟨by simp [isInput], fun other member => ?_⟩
    have present := ih other member
    rw [LawfulEndpoints.input?_setInput isInput] at present
    by_cases here : other.destination = packet.destination
    · simp [here, isInput]
    · rwa [if_neg here] at present

/-- The inputs before and after determine what has arrived on each route. -/
theorem onRoute_unique (fills : Fills endpoints arrivals after)
    (again : Fills endpoints others after) (route : Address × Address) :
    onRoute route arrivals = onRoute route others := by
  obtain ⟨sender, destination⟩ := route
  cases found : Endpoints.input? endpoints destination with
  | none =>
    have nothing {packets : List Packet} (into : Fills endpoints packets after) :
        onRoute (sender, destination) packets = [] := by
      refine List.filter_eq_nil_iff.mpr fun packet member => ?_
      simp only [decide_eq_true_eq]
      intro isRoute
      have isDestination : packet.destination = destination := congrArg Prod.snd isRoute
      have present := into.exists_input packet member
      rw [isDestination, found] at present
      cases present
    rw [nothing fills, nothing again]
  | some buffer =>
    obtain ⟨filled, isFilled, -, receives⟩ := fills.onRoute_eq_received found
    obtain ⟨same, isSame, -, receivesAgain⟩ := again.onRoute_eq_received found
    obtain rfl := Option.some.inj (isFilled.symm.trans isSame)
    rw [onRoute_eq_map, onRoute_eq_map _ _ others, receives, receivesAgain]

end Fills

/-! ## Passes -/

section Pass

variable {Collection : Type} [Endpoints Collection] {endpoints : Collection} {packet : Packet}
  {blocked : List (Address × Address)} {buffer : InputBuffer} {filled : List Slot}

theorem deliverAll_of_blocked (isBlocked : blocked.contains packet.route = true)
    (later : List Packet) :
    deliverAll blocked endpoints (packet :: later) =
      (deliverAll blocked endpoints later).hold packet := by
  rw [deliverAll, if_pos isBlocked]

theorem deliverAll_of_missing (notBlocked : ¬blocked.contains packet.route = true)
    (missing : Endpoints.input? endpoints packet.destination = none) (later : List Packet) :
    deliverAll blocked endpoints (packet :: later) =
      ⟨endpoints, packet :: later, 0, some (.unknownBuffer packet.destination)⟩ := by
  simp only [deliverAll, if_neg notBlocked, missing]

theorem deliverAll_of_refused (notBlocked : ¬blocked.contains packet.route = true)
    (input : Endpoints.input? endpoints packet.destination = some buffer)
    (refuses : InputBuffer.fillOldest packet.sender packet.value buffer.slots = none)
    (later : List Packet) :
    deliverAll blocked endpoints (packet :: later) =
      (deliverAll (packet.route :: blocked) endpoints later).hold packet := by
  simp only [deliverAll, if_neg notBlocked, input, InputBuffer.fill, refuses]

theorem deliverAll_of_filled (notBlocked : ¬blocked.contains packet.route = true)
    (input : Endpoints.input? endpoints packet.destination = some buffer)
    (fills : InputBuffer.fillOldest packet.sender packet.value buffer.slots = some filled)
    (later : List Packet) :
    deliverAll blocked endpoints (packet :: later) =
      (deliverAll blocked (Endpoints.setInput endpoints packet.destination
        { buffer with slots := filled }) later).arrive := by
  simp only [deliverAll, if_neg notBlocked, input, InputBuffer.fill, fills]

/-- A pass takes out the oldest packets of each route, none of a route that was blocked before, and
what it holds stays in order. -/
theorem deliverAll_arrivals (packets : List Packet) (blocked : List (Address × Address))
    (endpoints : Collection) :
    ∃ arrivals, Fills endpoints arrivals (deliverAll blocked endpoints packets).endpoints ∧
      (deliverAll blocked endpoints packets).count = arrivals.length ∧
      (∀ packet ∈ arrivals, packet.route ∉ blocked) ∧
      ∀ route, onRoute route packets =
        onRoute route arrivals ++ onRoute route (deliverAll blocked endpoints packets).held := by
  induction packets generalizing blocked endpoints with
  | nil => exact ⟨[], .nothing endpoints, rfl, nofun, fun _ => rfl⟩
  | cons packet later ih =>
    by_cases isBlocked : blocked.contains packet.route = true
    · rw [deliverAll_of_blocked isBlocked]
      obtain ⟨arrivals, fills, count, unblocked, split⟩ := ih blocked endpoints
      have others : ∀ other ∈ arrivals, other.route ≠ packet.route := fun other member same =>
        unblocked other member (same ▸ by simpa using isBlocked)
      exact ⟨arrivals, fills, count, unblocked, onRoute_cons_of_held others split⟩
    · cases found : Endpoints.input? endpoints packet.destination with
      | none =>
        rw [deliverAll_of_missing isBlocked found]
        exact ⟨[], .nothing endpoints, rfl, nofun, fun _ => rfl⟩
      | some buffer =>
        cases enters : InputBuffer.fillOldest packet.sender packet.value buffer.slots with
        | none =>
          rw [deliverAll_of_refused isBlocked found enters]
          obtain ⟨arrivals, fills, count, unblocked, split⟩ :=
            ih (packet.route :: blocked) endpoints
          have others : ∀ other ∈ arrivals, other.route ≠ packet.route := fun other member same =>
            unblocked other member (same ▸ List.mem_cons_self)
          exact ⟨arrivals, fills, count,
            fun other member isIn => unblocked other member (List.mem_cons_of_mem _ isIn),
            onRoute_cons_of_held others split⟩
        | some filled =>
          rw [deliverAll_of_filled isBlocked found enters]
          obtain ⟨arrivals, fills, count, unblocked, split⟩ := ih blocked _
          have fillsFirst : buffer.fill packet.sender packet.value =
              .ok { buffer with slots := filled } := by rw [InputBuffer.fill, enters]
          refine ⟨packet :: arrivals, .next found fillsFirst fills, congrArg (· + 1) count, ?_, ?_⟩
          · exact List.forall_mem_cons.mpr ⟨by simpa using isBlocked, unblocked⟩
          · intro route
            have rest := split route
            simp only [onRoute, Delivery.arrive, List.filter_cons] at rest ⊢
            split <;> simp [rest]

/-- A pass loses no packets. -/
theorem length_deliverAll (packets : List Packet) (blocked : List (Address × Address))
    (endpoints : Collection) :
    (deliverAll blocked endpoints packets).held.length +
      (deliverAll blocked endpoints packets).count = packets.length := by
  obtain ⟨arrivals, -, count, -, split⟩ := deliverAll_arrivals packets blocked endpoints
  have same : packets.Perm (arrivals ++ (deliverAll blocked endpoints packets).held) :=
    perm_of_onRoute fun route => (split route).trans (onRoute_append route _ _).symm
  rw [same.length_eq, List.length_append, count, Nat.add_comm]

/-- A pass in which nothing arrives leaves everything as it was. -/
theorem deliverAll_of_none (packets : List Packet) (blocked : List (Address × Address))
    (endpoints : Collection) (none : (deliverAll blocked endpoints packets).count = 0) :
    (deliverAll blocked endpoints packets).endpoints = endpoints ∧
      (deliverAll blocked endpoints packets).held = packets := by
  induction packets generalizing blocked with
  | nil => exact ⟨rfl, rfl⟩
  | cons packet later ih =>
    rw [deliverAll] at none ⊢
    split at none
    · rename_i isBlocked
      obtain ⟨same, held⟩ := ih blocked none
      rw [if_pos isBlocked]
      exact ⟨same, congrArg (packet :: ·) held⟩
    · rename_i notBlocked
      rw [if_neg notBlocked]
      split at none
      · exact ⟨rfl, rfl⟩
      · split at none
        · cases none
        · obtain ⟨same, held⟩ := ih _ none
          exact ⟨same, congrArg (packet :: ·) held⟩

end Pass

end MoveMachine
