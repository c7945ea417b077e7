import MoveMachine.Buffer.Input
import MoveMachine.Buffer.Output

/-!
# The interconnect

Packets leave the outputs in order and stay in flight until the input they are
meant for expects a value from their sender. A packet that has to wait holds
back all later packets on the same route, so the values between an output and an
input never overtake each other (`Interconnect.deliver`). Packets without a
destination are discarded when they are sent.
-/

set_option autoImplicit false

namespace MoveMachine

/-- A collection of input buffers, in which packets find theirs by address. -/
class Endpoints (Collection : Type) where
  /-- The input buffer at an address. -/
  input? : Collection → Address → Option InputBuffer
  /-- Puts another state of the input buffer at an address in its place. -/
  setInput : Collection → Address → InputBuffer → Collection

/-- Input buffers listed with their addresses. -/
structure InputTable where
  entries : List (Address × InputBuffer)
deriving DecidableEq

/-- The table of a list, in the order of the addresses. -/
def InputTable.ofList (entries : List (Address × InputBuffer)) : InputTable :=
  ⟨entries.mergeSort fun first second => first.1.code ≤ second.1.code⟩

instance : Endpoints InputTable where
  input? table address := table.entries.lookup address
  setInput table address buffer :=
    ⟨table.entries.map fun entry => if entry.1 = address then (address, buffer) else entry⟩

/-- The output that a packet left and the input that it is meant for. -/
def Packet.route (packet : Packet) : Address × Address := (packet.sender, packet.destination)

/-- The packets in flight, and what became of the others. -/
structure Interconnect where
  /-- The packets in flight, oldest first. -/
  inFlight : List Packet
  /-- How many packets can be in flight. -/
  capacity : Nat
  /-- The number of packets that arrived. -/
  delivered : Nat
  /-- The number of packets that were sent nowhere. -/
  discarded : Nat
deriving DecidableEq

/-- What one pass over the packets in flight leaves. -/
structure Delivery (Collection : Type) where
  /-- The input buffers after the pass. -/
  endpoints : Collection
  /-- The packets still in flight. -/
  held : List Packet
  /-- The number of packets that arrived. -/
  count : Nat
  /-- The fault that ended the pass early. -/
  fault : Option Fault

/-- A pass in which one more packet was held in front of the others. -/
def Delivery.hold {Collection : Type} (packet : Packet) (later : Delivery Collection) :
    Delivery Collection := { later with held := packet :: later.held }

/-- A pass in which one more packet arrived. -/
def Delivery.arrive {Collection : Type} (later : Delivery Collection) : Delivery Collection :=
  { later with count := later.count + 1 }

/-- Passes over the packets in flight, oldest first, given the routes on which one was held. A
packet for an input that does not exist ends the pass. -/
def deliverAll {Collection : Type} [Endpoints Collection] (blocked : List (Address × Address))
    (endpoints : Collection) : List Packet → Delivery Collection
  | [] => ⟨endpoints, [], 0, none⟩
  | packet :: later =>
    if blocked.contains packet.route then (deliverAll blocked endpoints later).hold packet
    else
      match Endpoints.input? endpoints packet.destination with
      | none => ⟨endpoints, packet :: later, 0, some (.unknownBuffer packet.destination)⟩
      | some input =>
        match input.fill packet.sender packet.value with
        | .ok filled =>
          (deliverAll blocked (Endpoints.setInput endpoints packet.destination filled) later).arrive
        | .error _ => (deliverAll (packet.route :: blocked) endpoints later).hold packet

namespace Interconnect

/-- An interconnect without packets, with room for at least one. -/
def empty (capacity : Nat) : Interconnect where
  inFlight := []
  capacity := max capacity 1
  delivered := 0
  discarded := 0

/-- Whether another packet can be in flight. -/
def canSend (interconnect : Interconnect) : Bool :=
  interconnect.inFlight.length < interconnect.capacity

/-- Takes a packet over from an output. -/
def send (interconnect : Interconnect) (packet : Packet) : Except Fault Interconnect :=
  match packet.destination.route with
  | .discard => .ok { interconnect with discarded := interconnect.discarded + 1 }
  | .deliver _ =>
    if interconnect.canSend then
      .ok { interconnect with inFlight := interconnect.inFlight ++ [packet] }
    else .error (.overflow .inFlight interconnect.capacity)

/-- Delivers every packet that its input expects and no earlier packet holds back, and reports how
many these were. After a fault the packets that did not arrive are still in flight. -/
def deliver {Collection : Type} [Endpoints Collection] (interconnect : Interconnect)
    (endpoints : Collection) : Interconnect × Collection × Except Fault Nat :=
  let delivery := deliverAll [] endpoints interconnect.inFlight
  match delivery.fault with
  | some fault =>
    ({ interconnect with inFlight := delivery.held }, delivery.endpoints, .error fault)
  | none =>
    ({ interconnect with
        inFlight := delivery.held
        delivered := interconnect.delivered + delivery.count },
      delivery.endpoints, .ok delivery.count)

/-- Forgets all packets. -/
def reset (interconnect : Interconnect) : Interconnect :=
  { interconnect with inFlight := [], delivered := 0, discarded := 0 }

end Interconnect
end MoveMachine
