import MoveMachine.Machine
import MoveMachine.Proofs.Kernel.Firing

/-!
# The machine as a network

A machine at work is a network of buffers between units. In this view a state
(`Network`) tells what is in each buffer by its address, what each manager holds
and what each kernel is at, without regard to how the units are stored and in
which order they are served.

The network changes in single events (`Network.Event`). `Network.Step` says when
an event can happen and what it changes: every rule of the machine is one rule
here, with its guard. An order of events is not prescribed; a round of the
machine is one of the possible orders.

A history lists the events since a start (`Network.Evolves`). What became of the
instructions and the values can be read off it: which instructions were issued
and which a manager applied, which slots were retired, which values a kernel
produced, which packets were sent and which arrived.
-/

set_option autoImplicit false

namespace MoveMachine

/-! ## What an instruction does to the network -/

namespace Instruction

/-- Whether the manager of a side of a unit is one of those that an instruction is issued to. -/
def concerns (instruction : Instruction) (post : UInt8 × Side) : Bool :=
  (Effect.of? post.2 post.1 instruction).isSome

/-- The slot that an instruction opens in its destination. -/
def slot : Instruction → Slot
  | .move source _ => .ofRegistration source.registration
  | .immediate value _ => .constant value
  | .jump _ => .marker

/-- Whether an instruction brings something to an input. -/
def goesTo (instruction : Instruction) (input : Address) : Bool :=
  !input.isNull && instruction.destination == input

/-- Whether an instruction moves a value out of an output. -/
def comesFrom (instruction : Instruction) (output : Address) : Bool :=
  match instruction with
  | .move source _ => !output.isNull && source == output
  | .immediate .. | .jump _ => false

/-- Where the program goes on after an instruction at an index. -/
def next (instruction : Instruction) (index : Nat) : Nat :=
  match instruction with
  | .jump target => target.toNat
  | .move .. | .immediate .. => index + 1

end Instruction

/-- A state of the machine, by the addresses of its buffers and the numbers of its units. -/
@[ext]
structure Network where
  /-- The slots of an input, oldest first. -/
  slots : Address → List Slot
  /-- The values in an output, oldest first. -/
  values : Address → List Word
  /-- The destinations in an output, oldest first. -/
  destinations : Address → List Address
  /-- The instruction that the manager of a side of a unit waits to apply. -/
  pending : UInt8 × Side → Option Instruction
  /-- The instructions that a manager has not yet looked at, oldest first. -/
  inbox : UInt8 × Side → List Instruction
  /-- The kernel of a unit. -/
  kernel : UInt8 → Option Kernel
  shared : Shared
  pc : Nat
  halted : Bool
  issued : Nat

namespace Network

/-! ## Events -/

/-- What can happen in a network. -/
inductive Event where
  /-- An instruction is issued to all managers that it concerns. -/
  | issue (instruction : Instruction)
  /-- The program is found to be at its end. -/
  | halt
  /-- A manager takes an instruction out of its inbox. -/
  | fetch (post : UInt8 × Side) (instruction : Instruction)
  /-- A manager applies the instruction it holds. -/
  | apply (post : UInt8 × Side) (instruction : Instruction)
  /-- A marker is retired. -/
  | clear (input : Address)
  /-- A kernel takes the oldest slots of some inputs and may produce a value. -/
  | fire (unit : UInt8) (taken : List (UInt8 × Slot)) (emitted : Option Word)
  /-- A kernel takes the oldest slots of some inputs and fails. -/
  | fail (unit : UInt8) (taken : List (UInt8 × Slot))
  /-- A packet leaves its output. -/
  | send (packet : Packet)
  /-- A packet fills a slot of its input. -/
  | arrive (packet : Packet)
  /-- The contents of memory are replaced from outside. -/
  | write

/-- What the manager of a side of a unit holds, in the order in which it will be applied. -/
def held (network : Network) (post : UInt8 × Side) : List Instruction :=
  (network.pending post).toList ++ network.inbox post

/-- The slots of all inputs when some inputs of a unit have lost their oldest one. -/
def retire (network : Network) (unit : UInt8) (ports : List UInt8) (input : Address) : List Slot :=
  if input.unit = unit ∧ input.buffer ∈ ports then (network.slots input).tail
  else network.slots input

/-- One event, for a program and buffers of a depth. -/
inductive Step (program : List Instruction) (depth : Nat) (network : Network) :
    Event → Network → Prop where
  /-- The next instruction is issued if all managers that it concerns have room for it. -/
  | issue {instruction : Instruction} (running : network.halted = false)
      (next : program[network.pc]? = some instruction)
      (room : ∀ post, instruction.concerns post = true → (network.inbox post).length < depth) :
      Step program depth network (.issue instruction)
        { network with
          inbox := fun post =>
            if instruction.concerns post then network.inbox post ++ [instruction]
            else network.inbox post
          pc := instruction.next network.pc
          issued := network.issued + 1 }
  | halt (running : network.halted = false) (ended : program[network.pc]? = none) :
      Step program depth network .halt { network with halted := true }
  | fetch {post : UInt8 × Side} {instruction : Instruction} {later : List Instruction}
      (free : network.pending post = none) (waiting : network.inbox post = instruction :: later) :
      Step program depth network (.fetch post instruction)
        { network with
          pending := Function.update network.pending post (some instruction)
          inbox := Function.update network.inbox post later }
  /-- The input manager opens a slot in an input of its unit that has room. -/
  | openSlot {unit : UInt8} {instruction : Instruction} {input : Address}
      (holds : network.pending (unit, .input) = some instruction) (own : input.unit = unit)
      (goes : instruction.goesTo input = true) (room : (network.slots input).length < depth) :
      Step program depth network (.apply (unit, .input) instruction)
        { network with
          pending := Function.update network.pending (unit, .input) none
          slots := Function.update network.slots input
            (network.slots input ++ [instruction.slot]) }
  /-- The output manager gives a destination to an output of its unit that has room. -/
  | direct {unit : UInt8} {instruction : Instruction} {output : Address}
      (holds : network.pending (unit, .output) = some instruction) (own : output.unit = unit)
      (comes : instruction.comesFrom output = true)
      (room : (network.destinations output).length < depth) :
      Step program depth network (.apply (unit, .output) instruction)
        { network with
          pending := Function.update network.pending (unit, .output) none
          destinations := Function.update network.destinations output
            (network.destinations output ++ [instruction.destination]) }
  | clear {input : Address} {younger : List Slot}
      (front : network.slots input = .marker :: younger) :
      Step program depth network (.clear input)
        { network with slots := Function.update network.slots input younger }
  /-- A kernel acts on the values in the oldest slots of the inputs that it waits for. -/
  | fire {unit : UInt8} {kernel : Kernel} {taken : List (UInt8 × Slot)} {words : List Word}
      {reaction : Reaction} (present : network.kernel unit = some kernel)
      (awaits : kernel.Awaits (taken.map (·.1)))
      (room : kernel.produces = true → (network.values ⟨unit, Bank.result⟩).length < depth)
      (heads : ∀ entry ∈ taken, (network.slots ⟨unit, entry.1⟩).head? = some entry.2)
      (holds : taken.map (·.2.value?) = words.map some)
      (reacts : kernel.react unit network.shared.memory words = .ok reaction) :
      Step program depth network (.fire unit taken reaction.emitted)
        { network with
          slots := network.retire unit (taken.map (·.1))
          values := Function.update network.values ⟨unit, Bank.result⟩
            (network.values ⟨unit, Bank.result⟩ ++ reaction.emitted.toList)
          kernel := Function.update network.kernel unit (some reaction.kernel)
          shared := { network.shared with
            memory := reaction.memory
            results := network.shared.results ++ reaction.collected.toArray } }
  /-- A kernel that cannot act on its values loses them. -/
  | fail {unit : UInt8} {kernel : Kernel} {taken : List (UInt8 × Slot)} {words : List Word}
      {fault : Fault} (present : network.kernel unit = some kernel)
      (awaits : kernel.Awaits (taken.map (·.1)))
      (room : kernel.produces = true → (network.values ⟨unit, Bank.result⟩).length < depth)
      (heads : ∀ entry ∈ taken, (network.slots ⟨unit, entry.1⟩).head? = some entry.2)
      (holds : taken.map (·.2.value?) = words.map some)
      (reacts : kernel.react unit network.shared.memory words = .error fault) :
      Step program depth network (.fail unit taken)
        { network with slots := network.retire unit (taken.map (·.1)) }
  /-- The oldest value and the oldest destination of an output leave it together. -/
  | send {output destination : Address} {value : Word} {values : List Word}
      {destinations : List Address} {interconnect : Interconnect}
      (first : network.values output = value :: values)
      (tag : network.destinations output = destination :: destinations)
      (accepts : network.shared.interconnect.canSend = true)
      (sends : network.shared.interconnect.send ⟨value, output, destination⟩ = .ok interconnect) :
      Step program depth network (.send ⟨value, output, destination⟩)
        { network with
          values := Function.update network.values output values
          destinations := Function.update network.destinations output destinations
          shared := { network.shared with interconnect } }
  /-- The first packet on its route fills the oldest slot that awaits its sender. -/
  | arrive {packet : Packet} {before after : List Packet} {filled : List Slot}
      (flying : network.shared.interconnect.inFlight = before ++ packet :: after)
      (first : packet.route ∉ before.map Packet.route)
      (fills : InputBuffer.fillOldest packet.sender packet.value
        (network.slots packet.destination) = some filled) :
      Step program depth network (.arrive packet)
        { network with
          slots := Function.update network.slots packet.destination filled
          shared := { network.shared with
            interconnect := { network.shared.interconnect with
              inFlight := before ++ after
              delivered := network.shared.interconnect.delivered + 1 } } }
  | write {memory : Memory} (size : memory.size = network.shared.memory.size) :
      Step program depth network .write
        { network with shared := { network.shared with memory } }

/-- A network comes from a start through the events of a history. -/
inductive Evolves (program : List Instruction) (depth : Nat) (start : Network) :
    List Event → Network → Prop where
  | start : Evolves program depth start [] start
  | step {history : List Event} {network after : Network} {event : Event}
      (earlier : Evolves program depth start history network)
      (happens : Step program depth network event after) :
      Evolves program depth start (history ++ [event]) after

/-- Histories follow each other. -/
theorem Evolves.trans {program : List Instruction} {depth : Nat} {start middle network : Network}
    {history later : List Event} (first : Evolves program depth start history middle)
    (second : Evolves program depth middle later network) :
    Evolves program depth start (history ++ later) network := by
  induction second with
  | start =>
    rw [List.append_nil]
    exact first
  | step _ happens ih =>
    rw [← List.append_assoc]
    exact ih.step happens

end Network
end MoveMachine
