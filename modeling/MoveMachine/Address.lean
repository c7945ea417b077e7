/-!
# Addresses

A buffer is addressed by the number of its unit and its index among the unit's
inputs or outputs. One address is reserved (`Address.null`). As the destination
of a value it means that the value is dropped (`Address.route`); as the source
an input is told to expect, it stands for a marker that no value follows
(`Address.registration`).
-/

set_option autoImplicit false

namespace MoveMachine

/-- A buffer: a unit number, and an index on the input or the output side of the unit. -/
structure Address where
  /-- The number of the unit. -/
  unit : UInt8
  /-- The index of the buffer on its side of the unit. -/
  buffer : UInt8
deriving DecidableEq, Inhabited

/-- What becomes of a value that leaves an output. -/
inductive Route where
  /-- The value travels to this input. -/
  | deliver (destination : Address)
  /-- The value is dropped. -/
  | discard
deriving DecidableEq

/-- What an input is told to wait for. -/
inductive Registration where
  /-- A value sent from this output. -/
  | expect (sender : Address)
  /-- A synchronisation marker; no value follows it. -/
  | marker
deriving DecidableEq

namespace Address

/-- The reserved address, which is no buffer of any unit. -/
def null : Address := ⟨255, 255⟩

/-- Whether an address is the reserved one. -/
def isNull (address : Address) : Bool := address == null

/-- An address read as a destination. -/
def route (address : Address) : Route :=
  if address.isNull then .discard else .deliver address

/-- An address read as the source that an input is told of. -/
def registration (address : Address) : Registration :=
  if address.isNull then .marker else .expect address

/-- The rank of an address in the order by unit and then by buffer. -/
def code (address : Address) : Nat := 256 * address.unit.toNat + address.buffer.toNat

/-- An address as it is written in listings, `unit@buffer`. -/
def text (address : Address) : String :=
  toString address.unit.toNat ++ "@" ++ toString address.buffer.toNat

end Address
end MoveMachine
