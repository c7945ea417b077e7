import MoveMachine.Proofs.Interconnect
import MoveMachine.Proofs.ReorderWindow
import Mathlib.Algebra.BigOperators.Group.Finset.Piecewise
import Mathlib.Data.List.Induction

/-!
# Deliveries are exhaustive

A delivery is described route by route. Of the packets on a route as many arrive as slots
of its input await a value from its sender, or all of them if there are fewer. They are
the oldest ones, and they fill the oldest of these slots in order (`Interconnect.Serves`).
So routes do not get into each other's way, though they share inputs and stand mixed in
the queue, and a second delivery finds nothing to do (`Interconnect.deliver_exhausts`).

The proof follows the queue from the front. A packet that has to wait says all about the
later ones on its route, since no slot is opened in the meantime. Hence the routes on
which a packet was held need not be remembered (`deliverAll_eq_deliverEach`), and what one
more packet at the end of the queue does is seen from the slots that the packets before it
have left open (`Interconnect.Serves.offer`).
-/

set_option autoImplicit false

namespace MoveMachine

/-! ## Supplied inputs -/

namespace InputBuffer

/-- A slot is not among as many like it as there are altogether. -/
theorem count_take_lt {slots : List Slot} {index : Nat} (inside : index < slots.length) :
    (slots.take index).count slots[index] < slots.count slots[index] := by
  have split : slots = slots.take index ++ slots[index] :: slots.drop (index + 1) := by
    rw [List.cons_getElem_drop_succ, List.take_append_drop]
  have counted := congrArg (List.count slots[index]) split
  rw [List.count_append, List.count_cons_self] at counted
  omega

/-- Values that are not awaited do not matter. -/
theorem settle_congr {arrived others : Address → List Word} {opened : List Slot}
    (agree : ∀ sender rank, rank < opened.count (.awaiting sender) →
      (arrived sender)[rank]? = (others sender)[rank]?) :
    settle arrived opened = settle others opened := by
  refine List.mapIdx_eq_mapIdx_iff.mpr fun index inside => ?_
  have rank := count_take_lt inside
  generalize opened[index] = slot at rank ⊢
  cases slot with
  | awaiting sender => rw [settled, settled, agree sender _ rank]
  | arrived | constant | marker => rfl

theorem settle_nothing (opened : List Slot) : settle (fun _ => []) opened = opened := by
  refine List.ext_getElem (length_settle opened) fun index _ inside => ?_
  simp only [settle, List.getElem_mapIdx]
  cases opened[index] with
  | awaiting | arrived | constant | marker => rfl

/-- An input once values have come from senders: the oldest slots that await a sender have got the
oldest values from it, in order, and nothing else has changed. -/
def supplied (buffer : InputBuffer) (values : Address → List Word) : InputBuffer :=
  { buffer with slots := settle values buffer.slots }

end InputBuffer

/-! ## Packets and their routes -/

/-- The values of the packets on their way to an address, by sender. -/
def valuesFor (address : Address) (packets : List Packet) (sender : Address) : List Word :=
  (onRoute (sender, address) packets).map (·.value)

theorem valuesFor_concat (address : Address) (packets : List Packet) (packet : Packet) :
    valuesFor address (packets ++ [packet]) =
      if packet.destination = address then
        Function.update (valuesFor address packets) packet.sender
          (valuesFor address packets packet.sender ++ [packet.value])
      else valuesFor address packets := by
  funext sender
  by_cases here : packet.destination = address
  · rw [if_pos here, Function.update_apply]
    by_cases same : sender = packet.sender
    · simp [valuesFor, onRoute, Packet.route, here, same]
    · simp [valuesFor, onRoute, Packet.route, here, same, Ne.symm same]
  · simp [valuesFor, onRoute, Packet.route, here]

@[simp] theorem onRoute_self (packet : Packet) : onRoute packet.route [packet] = [packet] := by
  simp [onRoute]

theorem onRoute_singleton_of_ne {route : Address × Address} {packet : Packet}
    (apart : packet.route ≠ route) : onRoute route [packet] = [] := by
  simp [onRoute, apart]

/-- The packets that are left when of each route the oldest ones are taken out, up to a quota. -/
def surplus (quota : Address × Address → Nat) (packets : List Packet) : List Packet :=
  (packets.mapIdx fun place packet =>
    if quota packet.route ≤ (onRoute packet.route (packets.take place)).length then [packet]
    else []).flatten

/-- The number of packets that are taken out. -/
def takenCount (quota : Address × Address → Nat) (packets : List Packet) : Nat :=
  ∑ route ∈ (packets.map (·.route)).toFinset, min (onRoute route packets).length (quota route)

section Surplus

variable (quota : Address × Address → Nat) (packets : List Packet) (packet : Packet)

/-- A packet is left if as many of its route as the quota says stand before it. -/
theorem surplus_concat :
    surplus quota (packets ++ [packet]) = surplus quota packets ++
      if quota packet.route ≤ (onRoute packet.route packets).length then [packet] else [] := by
  rw [surplus, List.mapIdx_concat, List.flatten_append, List.take_left' rfl, List.flatten_singleton,
    surplus, List.append_left_inj]
  refine congrArg List.flatten (List.mapIdx_eq_mapIdx_iff.mpr fun place inside => ?_)
  rw [List.take_append_of_le_length (Nat.le_of_lt inside)]

theorem onRoute_surplus (route : Address × Address) :
    onRoute route (surplus quota packets) = (onRoute route packets).drop (quota route) := by
  induction packets using List.reverseRecOn with
  | nil => simp [surplus, onRoute]
  | append_singleton packets packet ih =>
    rw [surplus_concat, onRoute_append, onRoute_append, ih, List.drop_append, List.append_right_inj]
    by_cases here : packet.route = route
    · subst here
      rw [onRoute_self]
      split
      · rename_i full
        rw [Nat.sub_eq_zero_of_le full, onRoute_self, List.drop_zero]
      · rename_i left
        rw [List.drop_of_length_le (Nat.sub_pos_of_lt (Nat.lt_of_not_le left))]
        rfl
    · rw [onRoute_singleton_of_ne here, List.drop_nil]
      split
      · exact onRoute_singleton_of_ne here
      · rfl

theorem surplus_sublist : (surplus quota packets).Sublist packets := by
  induction packets using List.reverseRecOn with
  | nil => exact List.Sublist.refl []
  | append_singleton packets packet ih =>
    rw [surplus_concat]
    refine ih.append ?_
    split
    · exact List.Sublist.refl _
    · exact List.nil_sublist _

theorem takenCount_concat :
    takenCount quota (packets ++ [packet]) = takenCount quota packets +
      if quota packet.route ≤ (onRoute packet.route packets).length then 0 else 1 := by
  have routes : ((packets ++ [packet]).map (·.route)).toFinset =
      insert packet.route (packets.map (·.route)).toFinset := by
    ext route
    simp
  have widen : takenCount quota packets =
      ∑ route ∈ insert packet.route (packets.map (·.route)).toFinset,
        min (onRoute route packets).length (quota route) := by
    refine Finset.sum_subset (Finset.subset_insert _ _) fun route _ absent => ?_
    have none : onRoute route packets = [] := by
      refine List.filter_eq_nil_iff.mpr fun other member isRoute => absent ?_
      rw [List.mem_toFinset, List.mem_map]
      exact ⟨other, member, by simpa using isRoute⟩
    rw [none, List.length_nil, Nat.zero_min]
  have grows (route : Address × Address) :
      min (onRoute route (packets ++ [packet])).length (quota route) =
        min (onRoute route packets).length (quota route) + if route = packet.route then
          if quota packet.route ≤ (onRoute packet.route packets).length then 0 else 1 else 0 := by
    by_cases here : route = packet.route
    · subst here
      rw [onRoute_append, List.length_append, onRoute_self, List.length_singleton, if_pos rfl]
      split <;> omega
    · rw [onRoute_append, onRoute_singleton_of_ne (Ne.symm here), List.append_nil, if_neg here,
        Nat.add_zero]
  rw [takenCount, routes, Finset.sum_congr rfl fun route _ => grows route, Finset.sum_add_distrib,
    ← widen, Finset.sum_ite_eq', if_pos (Finset.mem_insert_self _ _)]

end Surplus

/-! ## The queue from the front -/

section Offers

variable {Collection : Type} [Endpoints Collection] {endpoints : Collection}
  {held : List Packet} {count : Nat} {packet : Packet} {buffer : InputBuffer} {filled : List Slot}

/-- A pass that comes to one more packet. After a fault, packets are only held. -/
def Delivery.offer (delivery : Delivery Collection) (packet : Packet) : Delivery Collection :=
  match delivery.fault with
  | some _ => { delivery with held := delivery.held ++ [packet] }
  | none =>
    match Endpoints.input? delivery.endpoints packet.destination with
    | none => { delivery with
        held := delivery.held ++ [packet], fault := some (.unknownBuffer packet.destination) }
    | some buffer =>
      match buffer.fill packet.sender packet.value with
      | .ok filled => { delivery with
          endpoints := Endpoints.setInput delivery.endpoints packet.destination filled
          count := delivery.count + 1 }
      | .error _ => { delivery with held := delivery.held ++ [packet] }

/-- Passes over packets, oldest first, without remembering on which routes one was held. -/
def deliverEach (endpoints : Collection) (packets : List Packet) : Delivery Collection :=
  packets.foldl .offer ⟨endpoints, [], 0, none⟩

theorem foldl_offer_of_fault (packets held : List Packet) (fault : Fault) :
    packets.foldl .offer (⟨endpoints, held, count, some fault⟩ : Delivery Collection) =
      ⟨endpoints, held ++ packets, count, some fault⟩ := by
  induction packets generalizing held with
  | nil => simp
  | cons packet later ih =>
    have keeps :
        Delivery.offer (⟨endpoints, held, count, some fault⟩ : Delivery Collection) packet =
          ⟨endpoints, held ++ [packet], count, some fault⟩ := rfl
    rw [List.foldl_cons, keeps, ih, List.append_assoc]
    rfl

theorem offer_of_missing (missing : Endpoints.input? endpoints packet.destination = none) :
    Delivery.offer ⟨endpoints, held, count, none⟩ packet =
      ⟨endpoints, held ++ [packet], count, some (.unknownBuffer packet.destination)⟩ := by
  simp only [Delivery.offer, missing]

theorem offer_of_refused (input : Endpoints.input? endpoints packet.destination = some buffer)
    (refuses : InputBuffer.fillOldest packet.sender packet.value buffer.slots = none) :
    Delivery.offer ⟨endpoints, held, count, none⟩ packet =
      ⟨endpoints, held ++ [packet], count, none⟩ := by
  simp only [Delivery.offer, input, InputBuffer.fill, refuses]

theorem offer_of_filled (input : Endpoints.input? endpoints packet.destination = some buffer)
    (fills : InputBuffer.fillOldest packet.sender packet.value buffer.slots = some filled) :
    Delivery.offer ⟨endpoints, held, count, none⟩ packet =
      ⟨Endpoints.setInput endpoints packet.destination { buffer with slots := filled }, held,
        count + 1, none⟩ := by
  simp only [Delivery.offer, input, InputBuffer.fill, fills]

/-- Whether a packet on a route would have to wait. -/
def Refuses (endpoints : Collection) (route : Address × Address) : Prop :=
  ∃ buffer, Endpoints.input? endpoints route.2 = some buffer ∧
    Slot.awaiting route.1 ∉ buffer.slots

theorem fillOldest_eq_none_iff {sender : Address} {value : Word} {slots : List Slot} :
    InputBuffer.fillOldest sender value slots = none ↔ Slot.awaiting sender ∉ slots := by
  rw [← Option.isNone_iff_eq_none, ← Option.not_isSome, InputBuffer.fillOldest_isSome]
  simp

variable [LawfulEndpoints Collection]

/-- What has to wait still has to wait when values arrive. -/
theorem Refuses.setInput {route : Address × Address}
    (refuses : Refuses endpoints route)
    (input : Endpoints.input? endpoints packet.destination = some buffer)
    (fills : InputBuffer.fillOldest packet.sender packet.value buffer.slots = some filled) :
    Refuses (Endpoints.setInput endpoints packet.destination { buffer with slots := filled })
      route := by
  obtain ⟨refusing, found, absent⟩ := refuses
  rw [Refuses]
  simp only [LawfulEndpoints.input?_setInput input]
  by_cases here : route.2 = packet.destination
  · rw [here, input] at found
    obtain rfl := Option.some.inj found
    refine ⟨_, if_pos here, fun member => absent ?_⟩
    obtain ⟨older, younger, slots, -, rfl⟩ := InputBuffer.fillOldest_eq_some fills
    rw [slots]
    simp only [List.mem_append, List.mem_cons, reduceCtorEq, false_or] at member ⊢
    exact member.imp_right .inr
  · exact ⟨refusing, (if_neg here).trans found, absent⟩

/-- A pass that remembers routes on which packets have to wait does the same as one that tries
every packet. -/
theorem foldl_offer_eq (packets held : List Packet) (count : Nat)
    {blocked : List (Address × Address)} (refuses : ∀ route ∈ blocked, Refuses endpoints route) :
    packets.foldl .offer (⟨endpoints, held, count, none⟩ : Delivery Collection) =
      ⟨(deliverAll blocked endpoints packets).endpoints,
        held ++ (deliverAll blocked endpoints packets).held,
        count + (deliverAll blocked endpoints packets).count,
        (deliverAll blocked endpoints packets).fault⟩ := by
  induction packets generalizing endpoints held count blocked with
  | nil => simp [deliverAll]
  | cons packet later ih =>
    rw [List.foldl_cons]
    by_cases isBlocked : blocked.contains packet.route = true
    · obtain ⟨buffer, found, absent⟩ := refuses packet.route (by simpa using isBlocked)
      rw [deliverAll_of_blocked isBlocked,
        offer_of_refused found (fillOldest_eq_none_iff.mpr absent), ih _ _ refuses]
      simp [Delivery.hold]
    · cases found : Endpoints.input? endpoints packet.destination with
      | none =>
        rw [deliverAll_of_missing isBlocked found, offer_of_missing found, foldl_offer_of_fault]
        simp
      | some buffer =>
        cases enters : InputBuffer.fillOldest packet.sender packet.value buffer.slots with
        | none =>
          have refusesToo : ∀ route ∈ packet.route :: blocked, Refuses endpoints route :=
            List.forall_mem_cons.mpr
              ⟨⟨buffer, found, fillOldest_eq_none_iff.mp enters⟩, refuses⟩
          rw [deliverAll_of_refused isBlocked found enters, offer_of_refused found enters,
            ih _ _ refusesToo]
          simp [Delivery.hold]
        | some filled =>
          rw [deliverAll_of_filled isBlocked found enters, offer_of_filled found enters,
            ih _ _ fun route member => (refuses route member).setInput found enters]
          simp [Delivery.arrive, Nat.add_assoc, Nat.add_comm 1]

theorem deliverAll_eq_deliverEach (endpoints : Collection) (packets : List Packet) :
    deliverAll [] endpoints packets = deliverEach endpoints packets := by
  have noneRefused : ∀ route ∈ [], Refuses endpoints route := nofun
  rw [deliverEach, foldl_offer_eq packets [] 0 noneRefused, List.nil_append, Nat.zero_add]

end Offers

/-! ## What a pass comes to -/

section Passes

variable {Collection : Type} [Endpoints Collection] {endpoints : Collection}
  {packets : List Packet} {delivery : Delivery Collection} {packet : Packet}

/-- The number of slots that await a value on a route. -/
def awaited (endpoints : Collection) (route : Address × Address) : Nat :=
  (Endpoints.input? endpoints route.2).elim 0 fun buffer =>
    buffer.slots.count (.awaiting route.1)

theorem awaited_of_input? {buffer : InputBuffer}
    (found : Endpoints.input? endpoints packet.destination = some buffer) :
    awaited endpoints packet.route = buffer.slots.count (.awaiting packet.sender) := by
  rw [awaited, Packet.route, found]
  rfl

theorem length_valuesFor (packets : List Packet) (packet : Packet) :
    (valuesFor packet.destination packets packet.sender).length =
      (onRoute packet.route packets).length :=
  List.length_map _

/-- A pass has delivered what it could of packets whose inputs exist. -/
structure Serves (endpoints : Collection) (packets : List Packet)
    (delivery : Delivery Collection) : Prop where
  inputs : ∀ address, Endpoints.input? delivery.endpoints address =
    (Endpoints.input? endpoints address).map (·.supplied (valuesFor address packets))
  held : delivery.held = surplus (awaited endpoints) packets
  count : delivery.count = takenCount (awaited endpoints) packets
  fault : delivery.fault = none

variable [LawfulEndpoints Collection]

/-- One more packet arrives if more slots await a value on its route than packets of the route came
before it. -/
theorem Serves.offer (serves : Serves endpoints packets delivery)
    (present : (Endpoints.input? endpoints packet.destination).isSome = true) :
    Serves endpoints (packets ++ [packet]) (delivery.offer packet) := by
  obtain ⟨buffer, found⟩ := Option.isSome_iff_exists.mp present
  obtain ⟨reached, held, count, fault⟩ := delivery
  obtain ⟨inputs, isHeld, isCount, noFault⟩ := serves
  obtain rfl : fault = none := noFault
  have here := inputs packet.destination
  rw [found, Option.map_some] at here
  have enters := @InputBuffer.fillOldest_settle (valuesFor packet.destination packets)
    packet.sender packet.value buffer.slots
  rw [length_valuesFor, ← awaited_of_input? found] at enters
  split at enters
  · rename_i left
    rw [offer_of_filled here enters]
    refine ⟨fun address => ?_, ?_, ?_, rfl⟩
    · rw [LawfulEndpoints.input?_setInput here, valuesFor_concat]
      by_cases same : address = packet.destination
      · subst same
        rw [if_pos rfl, if_pos rfl, found]
        rfl
      · rw [if_neg same, if_neg (Ne.symm same)]
        exact inputs address
    · rw [surplus_concat, if_neg (Nat.not_le_of_lt left), List.append_nil]
      exact isHeld
    · rw [takenCount_concat, if_neg (Nat.not_le_of_lt left)]
      exact congrArg (· + 1) isCount
  · rename_i noneLeft
    have full := Nat.le_of_not_lt noneLeft
    rw [offer_of_refused here enters]
    refine ⟨fun address => (inputs address).trans ?_, ?_, ?_, rfl⟩
    · rw [valuesFor_concat]
      split
      · rename_i same
        subst same
        rw [found, Option.map_some, Option.map_some, InputBuffer.supplied, InputBuffer.supplied,
          InputBuffer.settle_congr fun sender rank isLess => ?_]
        rw [Function.update_apply]
        split
        · rename_i same
          subst same
          rw [awaited_of_input? found, ← length_valuesFor] at full
          rw [List.getElem?_append_left (Nat.lt_of_lt_of_le isLess full)]
        · rfl
      · rfl
    · rw [surplus_concat, if_pos full]
      exact congrArg (· ++ [packet]) isHeld
    · rw [takenCount_concat, if_pos full]
      exact isCount

theorem deliverEach_serves (packets : List Packet) (present : ∀ packet ∈ packets,
    (Endpoints.input? endpoints packet.destination).isSome = true) :
    Serves endpoints packets (deliverEach endpoints packets) := by
  induction packets using List.reverseRecOn with
  | nil =>
    refine ⟨fun address => ?_, rfl, rfl, rfl⟩
    have unchanged (buffer : InputBuffer) : buffer.supplied (valuesFor address []) = buffer :=
      congrArg (InputBuffer.mk buffer.depth) (InputBuffer.settle_nothing buffer.slots)
    simp only [unchanged, Option.map_id']
    rfl
  | append_singleton packets packet ih =>
    rw [deliverEach, List.foldl_concat]
    exact (ih fun other member => present other (List.mem_append_left _ member)).offer
      (present packet (by simp))

/-- The first packet whose input does not exist ends a pass. -/
theorem deliverEach_of_missing (before later : List Packet) (present : ∀ packet ∈ before,
    (Endpoints.input? endpoints packet.destination).isSome = true)
    (missing : Endpoints.input? endpoints packet.destination = none) :
    deliverEach endpoints (before ++ packet :: later) =
      ⟨(deliverEach endpoints before).endpoints,
        (deliverEach endpoints before).held ++ packet :: later,
        (deliverEach endpoints before).count, some (.unknownBuffer packet.destination)⟩ := by
  have serves := deliverEach_serves before present
  rw [deliverEach, List.foldl_append, ← deliverEach, List.foldl_cons]
  generalize deliverEach endpoints before = delivery at serves ⊢
  obtain ⟨reached, held, count, fault⟩ := delivery
  obtain rfl : fault = none := serves.fault
  have stillMissing : Endpoints.input? reached packet.destination = none := by
    rw [serves.inputs, missing]
    rfl
  rw [offer_of_missing stillMissing, foldl_offer_of_fault, List.append_assoc]
  rfl

end Passes

/-! ## Deliveries -/

namespace Interconnect

variable {Collection : Type} [Endpoints Collection] [LawfulEndpoints Collection]
  {endpoints reached : Collection} {interconnect : Interconnect} {packets : List Packet}

/-- What a delivery does if all inputs exist. -/
theorem deliver_of_present (present : ∀ packet ∈ interconnect.inFlight,
    (Endpoints.input? endpoints packet.destination).isSome = true) :
    let arrived := takenCount (awaited endpoints) interconnect.inFlight
    ∃ reached, interconnect.deliver endpoints =
        ({ interconnect with
          inFlight := surplus (awaited endpoints) interconnect.inFlight
          delivered := interconnect.delivered + arrived }, reached, .ok arrived) ∧
      ∀ address, Endpoints.input? reached address = (Endpoints.input? endpoints address).map
        (·.supplied (valuesFor address interconnect.inFlight)) := by
  intro arrived
  have serves := deliverEach_serves interconnect.inFlight present
  rw [deliver, deliverAll_eq_deliverEach]
  generalize deliverEach endpoints interconnect.inFlight = delivery at serves
  obtain ⟨reached, held, count, fault⟩ := delivery
  obtain ⟨inputs, isHeld, isCount, noFault⟩ := serves
  obtain rfl : held = surplus (awaited endpoints) interconnect.inFlight := isHeld
  obtain rfl : count = arrived := isCount
  obtain rfl : fault = none := noFault
  exact ⟨reached, rfl, inputs⟩

omit [LawfulEndpoints Collection] in
/-- No slot awaits a value on a route of which a packet is left. -/
theorem awaited_of_surplus (inputs : ∀ address, Endpoints.input? reached address =
      (Endpoints.input? endpoints address).map (·.supplied (valuesFor address packets)))
    {packet : Packet} (left : packet ∈ surplus (awaited endpoints) packets) :
    awaited reached packet.route = 0 := by
  have isLeft : packet ∈ (onRoute packet.route packets).drop (awaited endpoints packet.route) := by
    rw [← onRoute_surplus]
    exact List.mem_filter.mpr ⟨left, by simp⟩
  have exceeds := List.length_pos_of_mem isLeft
  rw [List.length_drop] at exceeds
  rw [awaited, Packet.route, inputs]
  cases found : Endpoints.input? endpoints packet.destination with
  | none => rfl
  | some buffer =>
    have quota := awaited_of_input? found
    have passed := length_valuesFor packets packet
    have refuses : InputBuffer.fillOldest packet.sender packet.value
        (buffer.supplied (valuesFor packet.destination packets)).slots = none := by
      rw [InputBuffer.supplied, InputBuffer.fillOldest_settle, if_neg (by omega)]
    exact List.count_eq_zero.mpr (fillOldest_eq_none_iff.mp refuses)

/-- A delivery right after another one finds nothing to do. -/
theorem deliver_again (inputs : ∀ address, Endpoints.input? reached address =
      (Endpoints.input? endpoints address).map (·.supplied (valuesFor address packets)))
    (present : ∀ packet ∈ packets, (Endpoints.input? endpoints packet.destination).isSome = true)
    (left : interconnect.inFlight = surplus (awaited endpoints) packets) :
    interconnect.deliver reached = (interconnect, reached, .ok 0) := by
  have stillPresent : ∀ packet ∈ interconnect.inFlight,
      (Endpoints.input? reached packet.destination).isSome = true := by
    intro packet member
    rw [left] at member
    rw [inputs, Option.isSome_map]
    exact present packet ((surplus_sublist _ _).mem member)
  have none : takenCount (awaited reached) interconnect.inFlight = 0 := by
    refine Finset.sum_eq_zero fun route isRoute => ?_
    rw [List.mem_toFinset, List.mem_map] at isRoute
    obtain ⟨packet, member, rfl⟩ := isRoute
    rw [left] at member
    rw [awaited_of_surplus inputs member, Nat.min_zero]
  have serves := deliverEach_serves interconnect.inFlight stillPresent
  rw [← deliverAll_eq_deliverEach] at serves
  have count := serves.count.trans none
  obtain ⟨same, held⟩ := deliverAll_of_none interconnect.inFlight [] reached count
  simp only [deliver, serves.fault, count, same, held, Nat.add_zero]

/-- A delivery is exhaustive, and it does not matter how routes are mixed in the queue.

If all inputs exist, then of each route as many packets arrive as there are slots that await them,
or all if there are fewer. They are the oldest ones, and fill the oldest of these slots in order.
The others are left in their order, a second delivery does nothing, and a queue in which every route
has the same packets in the same order leads to the same inputs. A pass that does not remember on
which routes a packet was held is the same. If some input does not exist, the delivery fails with
the first packet that is for such an input, after it has done with the packets before as if they
were all, and this packet and all behind it are left as well. -/
theorem deliver_exhausts (interconnect : Interconnect) (endpoints : Collection) :
    let queue := interconnect.inFlight
    let moved := fun route => min (onRoute route queue).length (awaited endpoints route)
    let total := ∑ route ∈ (queue.map (·.route)).toFinset, moved route
    let result := interconnect.deliver endpoints
    ((∀ packet ∈ queue, (Endpoints.input? endpoints packet.destination).isSome = true) →
      (∀ address, Endpoints.input? result.2.1 address =
        (Endpoints.input? endpoints address).map (·.supplied (valuesFor address queue))) ∧
      result.1 = { interconnect with
        inFlight := surplus (awaited endpoints) queue
        delivered := interconnect.delivered + total } ∧
      result.2.2 = .ok total ∧
      (∀ route, onRoute route result.1.inFlight = (onRoute route queue).drop (moved route)) ∧
      result.1.inFlight.Sublist queue ∧
      result.1.deliver result.2.1 = (result.1, result.2.1, .ok 0) ∧
      ∀ others, (∀ route, onRoute route others = onRoute route queue) →
        ∀ address, Endpoints.input? (deliver { interconnect with inFlight := others } endpoints).2.1
          address = Endpoints.input? result.2.1 address) ∧
    deliverAll [] endpoints queue = deliverEach endpoints queue ∧
    ∀ before packet later, queue = before ++ packet :: later →
      (∀ earlier ∈ before, (Endpoints.input? endpoints earlier.destination).isSome = true) →
      Endpoints.input? endpoints packet.destination = none →
      let reached := deliver { interconnect with inFlight := before } endpoints
      result.2.2 = .error (.unknownBuffer packet.destination) ∧ result.2.1 = reached.2.1 ∧
        result.1.inFlight = reached.1.inFlight ++ packet :: later := by
  intro queue moved total result
  refine ⟨fun present => ?_, deliverAll_eq_deliverEach endpoints queue, ?_⟩
  · obtain ⟨reached, delivers, inputs⟩ := deliver_of_present present
    have isResult : result = (_, reached, _) := delivers
    rw [isResult]
    refine ⟨inputs, rfl, rfl, fun route => ?_, surplus_sublist _ _,
      deliver_again inputs present rfl, fun others agree address => ?_⟩
    · rw [onRoute_surplus]
      rcases Nat.le_total (onRoute route queue).length (awaited endpoints route) with few | many
      · have allMoved : moved route = (onRoute route queue).length := Nat.min_eq_left few
        rw [allMoved, List.drop_length, List.drop_of_length_le few]
      · have someMoved : moved route = awaited endpoints route := Nat.min_eq_right many
        rw [someMoved]
    · have samePackets := perm_of_onRoute agree
      obtain ⟨reachedToo, deliversToo, inputsToo⟩ :=
        @deliver_of_present _ _ _ endpoints { interconnect with inFlight := others }
          fun packet member => present packet (samePackets.mem_iff.mp member)
      have sameValues : valuesFor address others = valuesFor address queue := by
        funext sender
        rw [valuesFor, agree, ← valuesFor]
      rw [deliversToo, inputsToo, inputs, sameValues]
  · intro before packet later split present missing reached
    have isQueue : interconnect.inFlight = before ++ packet :: later := split
    have passes := deliverEach_of_missing before later present missing
    have faultless := (deliverEach_serves before present).fault
    simp only [result, reached, deliver, deliverAll_eq_deliverEach, isQueue, passes, faultless,
      and_self]

/-- Two senders share an input that awaits the first of them once. -/
def mixedQueue : Interconnect where
  inFlight := [⟨.ofNat 1, ⟨1, 0⟩, ⟨5, 0⟩⟩, ⟨.ofNat 2, ⟨2, 0⟩, ⟨5, 0⟩⟩, ⟨.ofNat 3, ⟨1, 0⟩, ⟨5, 0⟩⟩,
    ⟨.ofNat 4, ⟨2, 0⟩, ⟨6, 0⟩⟩]
  capacity := 8
  delivered := 0
  discarded := 0

/-- The input, which is not that of the last packet. -/
def sharedInput : InputTable :=
  ⟨[(⟨5, 0⟩, ⟨⟨4, by decide, by decide⟩,
    [.awaiting ⟨2, 0⟩, .constant (.ofNat 9), .awaiting ⟨1, 0⟩]⟩)]⟩

theorem mixedQueue_delivered :
    let known := { mixedQueue with inFlight := mixedQueue.inFlight.take 3 }
    (∀ packet ∈ known.inFlight, (Endpoints.input? sharedInput packet.destination).isSome = true) ∧
    (known.deliver sharedInput).1.inFlight = [⟨.ofNat 3, ⟨1, 0⟩, ⟨5, 0⟩⟩] ∧
    (known.deliver sharedInput).2.2 = .ok 2 ∧
    Endpoints.input? sharedInput ⟨6, 0⟩ = none ∧
    (mixedQueue.deliver sharedInput).2.2 = .error (.unknownBuffer ⟨6, 0⟩) ∧
    (mixedQueue.deliver sharedInput).2.1 = (known.deliver sharedInput).2.1 := by
  intro known
  have present : ∀ packet ∈ known.inFlight,
      (Endpoints.input? sharedInput packet.destination).isSome = true := by decide
  have missing : Endpoints.input? sharedInput ⟨6, 0⟩ = none := by decide
  obtain ⟨-, held, arrived, -⟩ := (deliver_exhausts known sharedInput).1 present
  obtain ⟨fails, same, -⟩ := (deliver_exhausts mixedQueue sharedInput).2.2 known.inFlight
    ⟨.ofNat 4, ⟨2, 0⟩, ⟨6, 0⟩⟩ [] rfl present missing
  refine ⟨present, ?_, ?_, missing, fails, same⟩
  · rw [held]
    decide
  · rw [arrived]
    decide

end Interconnect

end MoveMachine
