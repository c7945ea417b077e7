import MoveMachine.Buffer.Bank
import MoveMachine.Step

/-!
# Buffer managers

Each side of a unit has a manager, which receives instructions into a bounded
inbox and carries out their effects on the buffers of its side one at a time. It
takes an instruction out of the inbox, holds it until the buffer concerned has
room, and then applies its effect. While it holds one, the inbox does not drain,
and while the inbox is full, no instruction that concerns this side is issued.
That is all that keeps the program from running ahead of the units.
-/

set_option autoImplicit false

namespace MoveMachine

/-- What a manager decides to do in one step. -/
structure Decision where
  /-- The instruction that the manager holds afterwards. -/
  pending : Option Instruction
  /-- The effect to carry out now. -/
  effect : Option Effect
  /-- Whether anything changes. -/
  progressed : Bool
deriving DecidableEq

/-- The decision of a manager that holds `pending`. Without an instruction it takes the next one;
with one it applies the effect as soon as the buffers have room for it; an instruction without an
effect here is dropped. -/
@[inline] def Decision.of (side : Side) (unit : UInt8) (hasRoom : Effect → Bool) (next : Option Instruction)
    (pending : Option Instruction) : Decision :=
  match pending with
  | none => ⟨next, none, next.isSome⟩
  | some instruction =>
    match Effect.of? side unit instruction with
    | none => ⟨none, none, true⟩
    | some effect => if hasRoom effect then ⟨none, some effect, true⟩ else ⟨pending, none, false⟩

/-- A manager with its inbox. -/
structure Manager where
  /-- The side of the unit that the manager is responsible for. -/
  side : Side
  /-- The number of the unit. -/
  unit : UInt8
  /-- The instruction that waits for room. -/
  pending : Option Instruction
  /-- The instructions received and not yet looked at, oldest first. -/
  inbox : List Instruction
  /-- How many instructions fit into the inbox. -/
  capacity : Nat
deriving DecidableEq

namespace Manager

/-- A manager that has received nothing. Its inbox has room for at least one instruction. -/
def empty (side : Side) (unit : UInt8) (capacity : Nat) : Manager where
  side
  unit
  pending := none
  inbox := []
  capacity := max capacity 1

/-- Whether the inbox has room. -/
def canAccept (manager : Manager) : Bool := manager.inbox.length < manager.capacity

/-- Whether the manager has nothing to do. -/
def isIdle (manager : Manager) : Bool := manager.pending.isNone && manager.inbox.isEmpty

/-- Puts an instruction into the inbox. -/
def receive (manager : Manager) (instruction : Instruction) : Except Fault Manager :=
  if manager.canAccept then .ok { manager with inbox := manager.inbox ++ [instruction] }
  else .error (.overflow .instructions manager.capacity)

/-- One step of a manager on the buffers of its unit. -/
@[inline] def step (manager : Manager) (buffers : Bank) : Stepped (Manager × Bank) :=
  let decision :=
    Decision.of manager.side manager.unit buffers.canApply manager.inbox.head? manager.pending
  let inbox := if manager.pending.isNone then manager.inbox.tail else manager.inbox
  let decided := { manager with pending := decision.pending, inbox }
  match decision.effect with
  | none => ⟨(decided, buffers), .ok decision.progressed⟩
  | some effect => .attempt (decided, buffers) ((buffers.apply effect).map (decided, ·))

/-- Forgets all instructions. -/
def reset (manager : Manager) : Manager := { manager with pending := none, inbox := [] }

end Manager
end MoveMachine
