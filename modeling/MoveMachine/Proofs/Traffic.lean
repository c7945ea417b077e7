import MoveMachine.Proofs.Interconnect

/-!
# Traffic through an interconnect

Packets are sent and delivered through an interconnect while anything may happen
to the inputs that they are for: slots are opened, values and markers are taken
out, buffers are emptied (`Interconnect.Traffic`). A ledger keeps what was
accepted and what has arrived since the interconnect was made or set back.

Whichever sends and deliveries fail, the packets accepted on a route are those
that have arrived followed by those in flight, in the order in which they were
sent (`Interconnect.routes_in_order`).

The counters of the interconnect agree with the ledger except for arrivals in
deliveries that ended in a fault, which are not counted
(`Interconnect.counters_agree`, `Interconnect.faulty_delivery_uncounted`).
-/

set_option autoImplicit false

namespace MoveMachine
namespace Interconnect

/-- What went through an interconnect. -/
structure Ledger where
  /-- The packets accepted, in the order in which they were sent. -/
  accepted : List Packet
  /-- The packets whose values have entered slots, in the order in which they did. -/
  arrived : List Packet
  /-- How many of these arrived in deliveries that ended in a fault. -/
  uncounted : Nat

namespace Ledger

/-- The ledger when nothing went through. -/
def blank : Ledger := ⟨[], [], 0⟩

/-- The ledger after one more packet was accepted. -/
def accept (ledger : Ledger) (packet : Packet) : Ledger :=
  { ledger with accepted := ledger.accepted ++ [packet] }

/-- The ledger after packets arrived in a delivery with a report. -/
def arrive (ledger : Ledger) (arrivals : List Packet) (report : Except Fault Nat) : Ledger :=
  { ledger with
    arrived := ledger.arrived ++ arrivals
    uncounted := ledger.uncounted + match report with
      | .ok _ => 0
      | .error _ => arrivals.length }

end Ledger

/-- An interconnect and the inputs that it delivers to, with the ledger of what went through since
it was made or set back. -/
inductive Traffic {Collection : Type} [Endpoints Collection] (capacity : Nat) :
    Ledger → Interconnect → Collection → Prop where
  | start (endpoints : Collection) : Traffic capacity .blank (.empty capacity) endpoints
  | accept {ledger : Ledger} {interconnect after : Interconnect} {endpoints : Collection}
      {packet : Packet} (earlier : Traffic capacity ledger interconnect endpoints)
      (sends : interconnect.send packet = .ok after) :
      Traffic capacity (ledger.accept packet) after endpoints
  /-- A packet that is refused leaves everything as it was. -/
  | refuse {ledger : Ledger} {interconnect : Interconnect} {endpoints : Collection}
      {packet : Packet} {fault : Fault} (earlier : Traffic capacity ledger interconnect endpoints)
      (refuses : interconnect.send packet = .error fault) :
      Traffic capacity ledger interconnect endpoints
  /-- A delivery, whatever it reports. The arrivals are any packets that make the inputs what they
  are afterwards if their values enter slots one after the other. -/
  | deliver {ledger : Ledger} {interconnect : Interconnect} {endpoints : Collection}
      {arrivals : List Packet} (earlier : Traffic capacity ledger interconnect endpoints)
      (fills : Fills endpoints arrivals (interconnect.deliver endpoints).2.1) :
      Traffic capacity (ledger.arrive arrivals (interconnect.deliver endpoints).2.2)
        (interconnect.deliver endpoints).1 (interconnect.deliver endpoints).2.1
  /-- Anything else that happens to the inputs. -/
  | change {ledger : Ledger} {interconnect : Interconnect} {endpoints : Collection}
      (earlier : Traffic capacity ledger interconnect endpoints) (others : Collection) :
      Traffic capacity ledger interconnect others
  | reset {ledger : Ledger} {interconnect : Interconnect} {endpoints : Collection}
      (earlier : Traffic capacity ledger interconnect endpoints) :
      Traffic capacity .blank interconnect.reset endpoints

variable {Collection : Type} [Endpoints Collection] {capacity : Nat} {ledger : Ledger}
  {interconnect : Interconnect} {endpoints : Collection} {arrivals : List Packet}

/-! ## Deliveries -/

/-- A delivery takes the oldest packets of each route out of flight. They are counted unless it ends
in a fault. -/
theorem exists_arrivals (interconnect : Interconnect) (endpoints : Collection) :
    ∃ arrivals, Fills endpoints arrivals (interconnect.deliver endpoints).2.1 ∧
      (∀ route, onRoute route interconnect.inFlight =
        onRoute route arrivals ++ onRoute route (interconnect.deliver endpoints).1.inFlight) ∧
      (interconnect.deliver endpoints).1 = { interconnect with
        inFlight := (interconnect.deliver endpoints).1.inFlight
        delivered := interconnect.delivered + match (interconnect.deliver endpoints).2.2 with
          | .ok _ => arrivals.length
          | .error _ => 0 } := by
  obtain ⟨arrivals, fills, count, -, split⟩ :=
    deliverAll_arrivals interconnect.inFlight [] endpoints
  refine ⟨arrivals, ?_⟩
  rw [deliver]
  cases (deliverAll [] endpoints interconnect.inFlight).fault with
  | some fault => exact ⟨fills, split, rfl⟩
  | none => exact ⟨fills, split, by rw [count]⟩

section Lawful

variable [LawfulEndpoints Collection]

/-- Whatever order of arrivals explains what a delivery did to the inputs, it is the one in which
the packets of each route were sent. -/
theorem deliver_of_fills (fills : Fills endpoints arrivals (interconnect.deliver endpoints).2.1) :
    (∀ route, onRoute route interconnect.inFlight =
        onRoute route arrivals ++ onRoute route (interconnect.deliver endpoints).1.inFlight) ∧
      (interconnect.deliver endpoints).1 = { interconnect with
        inFlight := (interconnect.deliver endpoints).1.inFlight
        delivered := interconnect.delivered + match (interconnect.deliver endpoints).2.2 with
          | .ok _ => arrivals.length
          | .error _ => 0 } := by
  obtain ⟨others, fillsOthers, split, becomes⟩ := exists_arrivals interconnect endpoints
  have same := fills.onRoute_unique fillsOthers
  refine ⟨fun route => (split route).trans (by rw [same]), ?_⟩
  rw [(perm_of_onRoute same).length_eq]
  exact becomes

/-- A delivery loses no packet. -/
theorem perm_of_fills (fills : Fills endpoints arrivals (interconnect.deliver endpoints).2.1) :
    interconnect.inFlight.Perm (arrivals ++ (interconnect.deliver endpoints).1.inFlight) :=
  perm_of_onRoute fun route =>
    ((deliver_of_fills fills).1 route).trans (onRoute_append route _ _).symm

/-! ## Order -/

/-- Only packets with a destination are in flight. -/
theorem Traffic.real (traffic : Traffic capacity ledger interconnect endpoints) :
    ∀ packet ∈ interconnect.inFlight, packet.destination.isNull = false := by
  induction traffic with
  | start => nofun
  | accept earlier sends ih =>
    rcases send_cases sends with ⟨-, rfl⟩ | ⟨real, -, rfl⟩
    · exact ih
    · simpa [or_imp, forall_and, real] using ih
  | refuse _ _ ih => exact ih
  | deliver earlier fills ih =>
    exact fun packet flying =>
      ih packet ((perm_of_fills fills).mem_iff.mpr (List.mem_append_right _ flying))
  | change _ _ ih => exact ih
  | reset => nofun

/-- There is room for one packet at least, and there are no more packets than room. -/
theorem Traffic.bounded (traffic : Traffic capacity ledger interconnect endpoints) :
    interconnect.capacity = max capacity 1 ∧
      interconnect.inFlight.length ≤ interconnect.capacity := by
  induction traffic with
  | start => exact ⟨rfl, Nat.zero_le _⟩
  | accept earlier sends ih =>
    rcases send_cases sends with ⟨-, rfl⟩ | ⟨-, room, rfl⟩
    · exact ih
    · have free := of_decide_eq_true room
      refine ⟨ih.1, ?_⟩
      rw [List.length_append, List.length_singleton]
      exact free
  | refuse _ _ ih => exact ih
  | @deliver ledger interconnect endpoints arrivals earlier fills ih =>
    have unchanged : (interconnect.deliver endpoints).1.capacity = interconnect.capacity := by
      rw [(deliver_of_fills fills).2]
    have packets := (perm_of_fills fills).length_eq
    rw [List.length_append] at packets
    exact ⟨unchanged.trans ih.1, by omega⟩
  | change _ _ ih => exact ih
  | reset _ ih => exact ⟨ih.1, Nat.zero_le _⟩

/-- On a route, the packets accepted have arrived or are in flight. -/
theorem Traffic.onRoute_accepted (traffic : Traffic capacity ledger interconnect endpoints)
    {route : Address × Address} (real : route.2.isNull = false) :
    onRoute route ledger.accepted =
      onRoute route ledger.arrived ++ onRoute route interconnect.inFlight := by
  induction traffic with
  | start => rfl
  | @accept ledger interconnect after endpoints packet earlier sends ih =>
    rcases send_cases sends with ⟨isNull, rfl⟩ | ⟨-, -, rfl⟩
    · have elsewhere : packet.route ≠ route := by
        rintro rfl
        rw [Packet.route, isNull] at real
        cases real
      simpa [Ledger.accept, onRoute, elsewhere] using ih
    · simp [Ledger.accept, ih]
  | refuse _ _ ih => exact ih
  | deliver earlier fills ih =>
    simp only [Ledger.arrive, onRoute_append, ih, (deliver_of_fills fills).1 route,
      List.append_assoc]
  | change _ _ ih => exact ih
  | reset => rfl

/-- Whichever sends and deliveries fail and whatever happens to the inputs, the packets accepted on
a route are those that have arrived followed by those in flight. Nothing without a destination is in
flight and no more than there is room for, only then is a packet refused, and a delivery does
nothing to the inputs but to fill slots. -/
theorem routes_in_order (traffic : Traffic capacity ledger interconnect endpoints) :
    (∀ route : Address × Address, route.2.isNull = false →
      onRoute route ledger.accepted =
        onRoute route ledger.arrived ++ onRoute route interconnect.inFlight) ∧
    (∀ packet ∈ interconnect.inFlight, packet.destination.isNull = false) ∧
    interconnect.inFlight.length ≤ max capacity 1 ∧
    (∀ packet fault, interconnect.send packet = .error fault ↔
      packet.destination.isNull = false ∧ interconnect.inFlight.length = max capacity 1 ∧
        fault = .overflow .inFlight (max capacity 1)) ∧
    ∃ arrivals, Fills endpoints arrivals (interconnect.deliver endpoints).2.1 := by
  obtain ⟨isCapacity, within⟩ := traffic.bounded
  rw [isCapacity] at within
  refine ⟨fun _ => traffic.onRoute_accepted, traffic.real, within, fun packet fault => ?_, ?_⟩
  · have full : max capacity 1 ≤ interconnect.inFlight.length ↔
        interconnect.inFlight.length = max capacity 1 :=
      ⟨Nat.le_antisymm within, Nat.le_of_eq ∘ Eq.symm⟩
    rw [send_eq_error_iff, isCapacity, full]
  · obtain ⟨arrivals, fills, -⟩ := exists_arrivals interconnect endpoints
    exact ⟨arrivals, fills⟩

end Lawful

/-! ## A stray packet -/

/-- An input that awaits one value. -/
def expecting : InputTable := ⟨[(⟨1, 0⟩, ⟨⟨1, by decide, by decide⟩, [.awaiting ⟨0, 0⟩]⟩)]⟩

/-- The input when the value has arrived. -/
def supplied : InputTable :=
  ⟨[(⟨1, 0⟩, ⟨⟨1, by decide, by decide⟩, [.arrived ⟨0, 0⟩ (.ofNat 1)]⟩)]⟩

/-- A packet from the output that the input awaits a value of. -/
def parcel (value : Nat) (destination : Address) : Packet := ⟨.ofNat value, ⟨0, 0⟩, destination⟩

/-- One packet arrives, and the one behind it is for an input that does not exist. -/
theorem Traffic.stray :
    Traffic 2 ⟨[parcel 1 ⟨1, 0⟩, parcel 2 ⟨7, 7⟩], [parcel 1 ⟨1, 0⟩], 1⟩
      ⟨[parcel 2 ⟨7, 7⟩], 2, 0, 0⟩ supplied := by
  have sent : Traffic 2 ⟨[parcel 1 ⟨1, 0⟩, parcel 2 ⟨7, 7⟩], [], 0⟩
      ⟨[parcel 1 ⟨1, 0⟩, parcel 2 ⟨7, 7⟩], 2, 0, 0⟩ expecting := by
    have first : Traffic 2 ⟨[parcel 1 ⟨1, 0⟩], [], 0⟩ ⟨[parcel 1 ⟨1, 0⟩], 2, 0, 0⟩ expecting := by
      apply Traffic.accept (.start expecting)
      rfl
    apply first.accept
    rfl
  exact sent.deliver (.next rfl rfl (.nothing _))

theorem stray_routes_in_order :
    Traffic 2 ⟨[parcel 1 ⟨1, 0⟩, parcel 2 ⟨7, 7⟩, parcel 3 ⟨1, 0⟩], [parcel 1 ⟨1, 0⟩], 1⟩
        ⟨[parcel 2 ⟨7, 7⟩, parcel 3 ⟨1, 0⟩], 2, 0, 0⟩ supplied ∧
      [parcel 1 ⟨1, 0⟩, parcel 3 ⟨1, 0⟩] = [parcel 1 ⟨1, 0⟩] ++ [parcel 3 ⟨1, 0⟩] ∧
      send ⟨[parcel 2 ⟨7, 7⟩, parcel 3 ⟨1, 0⟩], 2, 0, 0⟩ (parcel 4 ⟨1, 0⟩) =
        .error (.overflow .inFlight 2) := by
  have traffic : Traffic 2
      ⟨[parcel 1 ⟨1, 0⟩, parcel 2 ⟨7, 7⟩, parcel 3 ⟨1, 0⟩], [parcel 1 ⟨1, 0⟩], 1⟩
      ⟨[parcel 2 ⟨7, 7⟩, parcel 3 ⟨1, 0⟩], 2, 0, 0⟩ supplied := by
    apply Traffic.stray.accept
    rfl
  obtain ⟨onRoutes, -, -, refuses, -⟩ := routes_in_order traffic
  exact ⟨traffic, onRoutes (⟨0, 0⟩, ⟨1, 0⟩) rfl, (refuses _ _).mpr ⟨rfl, rfl, rfl⟩⟩

/-! ## Counters -/

/-- The counters tell how many packets were accepted, but for those that arrived in a delivery that
ended in a fault. -/
theorem counters_agree [LawfulEndpoints Collection]
    (traffic : Traffic capacity ledger interconnect endpoints) :
    ledger.accepted.countP (!·.destination.isNull) =
        interconnect.delivered + interconnect.inFlight.length + ledger.uncounted ∧
      ledger.accepted.countP (·.destination.isNull) = interconnect.discarded := by
  induction traffic with
  | start => exact ⟨rfl, rfl⟩
  | @accept ledger interconnect after endpoints packet earlier sends ih =>
    rcases send_cases sends with ⟨isNull, rfl⟩ | ⟨real, -, rfl⟩
    · simpa [Ledger.accept, isNull] using ih
    · simp [Ledger.accept, real]
      omega
  | refuse _ _ ih => exact ih
  | @deliver ledger interconnect endpoints arrivals earlier fills ih =>
    have packets := (perm_of_fills fills).length_eq
    rw [List.length_append] at packets
    have becomes := (deliver_of_fills fills).2
    have isDelivered := congrArg (·.delivered) becomes
    have isDiscarded := congrArg (·.discarded) becomes
    refine ⟨?_, ih.2.trans isDiscarded.symm⟩
    simp only [Ledger.arrive]
    cases reported : (interconnect.deliver endpoints).2.2 <;>
      simp only [reported] at isDelivered ⊢ <;> omega
  | change _ _ ih => exact ih
  | reset => exact ⟨rfl, rfl⟩

theorem stray_counters_agree :
    Traffic 2 ⟨[parcel 1 ⟨1, 0⟩, parcel 2 ⟨7, 7⟩], [parcel 1 ⟨1, 0⟩], 1⟩
        ⟨[parcel 2 ⟨7, 7⟩], 2, 0, 0⟩ supplied ∧
      [parcel 1 ⟨1, 0⟩, parcel 2 ⟨7, 7⟩].countP (!·.destination.isNull) = 0 + 1 + 1 ∧
      [parcel 1 ⟨1, 0⟩, parcel 2 ⟨7, 7⟩].countP (·.destination.isNull) = 0 :=
  ⟨Traffic.stray, counters_agree Traffic.stray⟩

/-- Without the arrivals in faulty deliveries the counters fall short: a packet has arrived in a
slot and is neither counted nor in flight. -/
theorem faulty_delivery_uncounted :
    ¬∀ (capacity : Nat) (ledger : Ledger) (interconnect : Interconnect) (endpoints : InputTable),
      Traffic capacity ledger interconnect endpoints →
        ledger.accepted.countP (!·.destination.isNull) =
          interconnect.delivered + interconnect.inFlight.length := by
  intro counted
  have short := counted _ _ _ _ Traffic.stray
  revert short
  decide

end Interconnect
end MoveMachine
