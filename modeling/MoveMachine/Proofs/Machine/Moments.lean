import MoveMachine.Proofs.Network.Chronicle

/-!
# Moments

What a machine does to instructions, slots and values it does when its units make
their steps, and when packets are delivered afterwards. A moment is a unit, with what
all units share, at which the unit begins a step. What is done then
(`ProcessingUnit.chronicle`) is read off the parts that do it: off the steps of the
managers and of the kernel, and off what has left the outputs when the step is over.

In a round the units make their steps one after the other, until one of them fails
(`Machine.unitMoments`).
-/

set_option autoImplicit false

namespace MoveMachine

/-- What a manager holds, in the order in which it will be applied. -/
def Manager.held (manager : Manager) : List Instruction :=
  manager.pending.toList ++ manager.inbox

namespace ProcessingUnit

/-! ## The stages of a step -/

/-- A unit and what all share after the manager of the inputs has made its step. -/
def afterInputs (moment : ProcessingUnit × Shared) : ProcessingUnit × Shared :=
  (stepManager .input moment).state

/-- A unit and what all share after both managers have made their step. -/
def afterManagers (moment : ProcessingUnit × Shared) : ProcessingUnit × Shared :=
  (stepManager .output (afterInputs moment)).state

/-- A unit and what all share when packets are about to be handed over. -/
def afterKernel (moment : ProcessingUnit × Shared) : ProcessingUnit × Shared :=
  (stepKernel (afterManagers moment)).state

/-! ## What is done in a step -/

/-- What the manager of a side does: it applies instructions, so that slots are opened in inputs or
destinations given to outputs. -/
def managerChronicle (side : Side) (moment : ProcessingUnit × Shared) : Chronicle :=
  let unit := moment.1
  let stepped := ((unit.manager side).step unit.buffers).state
  { Chronicle.nothing with
    applied := fun post =>
      if post = (unit.number, side) then
        Chronicle.gone (unit.manager side).held stepped.1.held
      else []
    opened := fun input =>
      if input.unit = unit.number then
        Chronicle.added (unit.buffers.slotsAt input.buffer) (stepped.2.slotsAt input.buffer)
      else []
    directed := fun output =>
      if output.unit = unit.number then
        Chronicle.added (unit.buffers.destinationsAt output.buffer)
          (stepped.2.destinationsAt output.buffer)
      else [] }

/-- What the kernel does: it retires slots of inputs and gives values to an output. -/
def kernelChronicle (moment : ProcessingUnit × Shared) : Chronicle :=
  let unit := moment.1
  let stepped := (Kernel.step unit.number
    ⟨unit.kernel, unit.buffers, moment.2.memory, moment.2.results⟩).state
  { Chronicle.nothing with
    retired := fun input =>
      if input.unit = unit.number then
        Chronicle.gone (unit.buffers.slotsAt input.buffer) (stepped.buffers.slotsAt input.buffer)
      else []
    pushed := fun output =>
      if output.unit = unit.number then
        Chronicle.added (unit.buffers.valuesAt output.buffer)
          (stepped.buffers.valuesAt output.buffer)
      else [] }

/-- What is handed over between two states of a unit: the oldest values of its outputs with the
oldest destinations. -/
def handingChronicle (before after : ProcessingUnit × Shared) : Chronicle :=
  { Chronicle.nothing with
    departed := fun output =>
      if output.unit = before.1.number then
        Chronicle.packets output
          (Chronicle.gone (before.1.buffers.valuesAt output.buffer)
            (after.1.buffers.valuesAt output.buffer))
          (Chronicle.gone (before.1.buffers.destinationsAt output.buffer)
            (after.1.buffers.destinationsAt output.buffer))
      else [] }

theorem handingChronicle_self (moment : ProcessingUnit × Shared) :
    handingChronicle moment moment = .nothing := by
  ext <;> simp [handingChronicle, Chronicle.nothing, Chronicle.packets]

/-- What a unit does in a step that begins at a moment. -/
def chronicle (moment : ProcessingUnit × Shared) : Chronicle :=
  managerChronicle .input moment ++ managerChronicle .output (afterInputs moment) ++
    kernelChronicle (afterManagers moment) ++
      handingChronicle (afterKernel moment) (moment.1.step moment.2).state

end ProcessingUnit

namespace Machine

/-- The moments at which units begin their steps, one after the other, up to the first fault. -/
def unitMoments : List ProcessingUnit → Shared → List (ProcessingUnit × Shared)
  | [], _ => []
  | unit :: later, shared =>
    (unit, shared) ::
      match unit.step shared with
      | ⟨_, .error _⟩ => []
      | ⟨(_, shared), .ok _⟩ => unitMoments later shared

end Machine
end MoveMachine
