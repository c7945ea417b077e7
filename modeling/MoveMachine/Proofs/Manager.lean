import MoveMachine.Manager
import MoveMachine.Proofs.Network.Account

/-!
# What a manager can do

A step of a manager is one of six (`Manager.Outcome`): it rests, takes the next
instruction, drops a foreign one, waits for room, applies an effect, or fails to
apply one. The effect of an instruction on its side of a unit is to open a slot,
or to give a destination to an output (`Effect.of?_input`, `Effect.of?_output`).
-/

set_option autoImplicit false

namespace MoveMachine

namespace Effect

/-- On the input side an instruction opens its slot in the input that it goes to. -/
theorem of?_input {unit : UInt8} {instruction : Instruction} {effect : Effect}
    (found : of? .input unit instruction = some effect) :
    ∃ input : Address, input.unit = unit ∧ instruction.goesTo input = true ∧
      ∀ bank : Bank,
        bank.apply effect = bank.alterInput input.buffer (·.openSlot instruction.slot) ∧
        bank.canApply effect = (bank.input? input.buffer).all (!·.isFull) := by
  cases instruction with
  | move source destination =>
    simp only [of?] at found
    split at found
    · rename_i here
      obtain rfl := Option.some.inj found
      exact ⟨destination, here.1, by simp [Instruction.goesTo, Instruction.destination, here.2],
        fun bank => ⟨rfl, rfl⟩⟩
    · cases found
  | immediate value destination =>
    simp only [of?] at found
    split at found
    · rename_i here
      obtain rfl := Option.some.inj found
      exact ⟨destination, here.1, by simp [Instruction.goesTo, Instruction.destination, here.2],
        fun bank => ⟨rfl, rfl⟩⟩
    · cases found
  | jump target => cases found

/-- On the output side an instruction gives its destination to the output that it comes from. -/
theorem of?_output {unit : UInt8} {instruction : Instruction} {effect : Effect}
    (found : of? .output unit instruction = some effect) :
    ∃ output : Address, output.unit = unit ∧ instruction.comesFrom output = true ∧
      ∀ bank : Bank,
        bank.apply effect =
          bank.alterOutput output.buffer (·.pushDestination instruction.destination) ∧
        bank.canApply effect = (bank.output? output.buffer).all (!·.destinationsFull) := by
  cases instruction with
  | move source destination =>
    simp only [of?] at found
    split at found
    · rename_i here
      obtain rfl := Option.some.inj found
      exact ⟨source, here.1, by simp [Instruction.comesFrom, here.2], fun bank => ⟨rfl, rfl⟩⟩
    · cases found
  | immediate value destination => cases found
  | jump target => cases found

end Effect

namespace Manager

/-- What a step of a manager can come to. -/
inductive Outcome (manager : Manager) (buffers : Bank) : Stepped (Manager × Bank) → Prop where
  | rests (free : manager.pending = none) (empty : manager.inbox = []) :
      Outcome manager buffers ⟨(manager, buffers), .ok false⟩
  | fetches {instruction : Instruction} {later : List Instruction}
      (free : manager.pending = none) (waiting : manager.inbox = instruction :: later) :
      Outcome manager buffers
        ⟨({ manager with pending := some instruction, inbox := later }, buffers), .ok true⟩
  | drops {instruction : Instruction} (holds : manager.pending = some instruction)
      (foreign : Effect.of? manager.side manager.unit instruction = none) :
      Outcome manager buffers ⟨({ manager with pending := none }, buffers), .ok true⟩
  | waits {instruction : Instruction} {effect : Effect}
      (holds : manager.pending = some instruction)
      (means : Effect.of? manager.side manager.unit instruction = some effect)
      (full : buffers.canApply effect = false) :
      Outcome manager buffers ⟨(manager, buffers), .ok false⟩
  | applies {instruction : Instruction} {effect : Effect} {after : Bank}
      (holds : manager.pending = some instruction)
      (means : Effect.of? manager.side manager.unit instruction = some effect)
      (room : buffers.canApply effect = true) (applied : buffers.apply effect = .ok after) :
      Outcome manager buffers ⟨({ manager with pending := none }, after), .ok true⟩
  | fails {instruction : Instruction} {effect : Effect} {fault : Fault}
      (holds : manager.pending = some instruction)
      (means : Effect.of? manager.side manager.unit instruction = some effect)
      (room : buffers.canApply effect = true) (applied : buffers.apply effect = .error fault) :
      Outcome manager buffers ⟨({ manager with pending := none }, buffers), .error fault⟩

theorem step_outcome (manager : Manager) (buffers : Bank) :
    Outcome manager buffers (manager.step buffers) := by
  obtain ⟨side, unit, pending, inbox, capacity⟩ := manager
  cases pending with
  | none =>
    cases inbox with
    | nil => exact .rests rfl rfl
    | cons instruction later => exact .fetches rfl rfl
  | some instruction =>
    cases means : Effect.of? side unit instruction with
    | none =>
      simp only [step, Decision.of, means]
      exact .drops rfl means
    | some effect =>
      cases room : buffers.canApply effect with
      | false =>
        simp only [step, Decision.of, means, room, Bool.false_eq_true, if_false]
        exact .waits rfl means room
      | true =>
        simp only [step, Decision.of, means, room, if_true]
        cases applied : buffers.apply effect with
        | ok after => exact .applies rfl means room applied
        | error fault => exact .fails rfl means room applied

end Manager
end MoveMachine
