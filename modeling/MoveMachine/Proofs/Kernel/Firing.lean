import MoveMachine.Proofs.Contents

/-!
# Firings of a kernel

All kernels work alike. A kernel waits for a value on each of certain inputs
(`Kernel.Awaits`) and, if it is about to produce a value, for room in the output
(`Kernel.produces`). When these are there it fires: it takes the values, and
what it does with them is a function of its state, the memory and the values
alone (`Kernel.react`).

The two parts of a kernel's step, fetching a micro-op and handling an element of
work, are each at most one such firing (`Kernel.fetch_outcome`,
`Kernel.perform_outcome`); the control unit, which empties its inputs at once,
is treated apart. A firing that does not happen was not possible.
-/

set_option autoImplicit false

namespace MoveMachine

/-- Whether a fault is one that a unit's kernel can end in. -/
def Fault.isKernelFault : Fault → Bool
  | .invalidMicroOp .. | .divisionByZero _ | .memoryOutOfBounds .. => true
  | _ => false

/-- The kind of unit that has a kernel. -/
def Kernel.type : Kernel → UnitType
  | .control => .control
  | .loadStore _ => .loadStore
  | .arithmetic _ => .arithmetic
  | .streamIn .. => .streamIn
  | .streamOut .. => .streamOut
  | .reorder => .reorder

/-- What a kernel makes of the values it has taken. -/
structure Reaction where
  /-- The state of the kernel afterwards. -/
  kernel : Kernel
  memory : Memory
  /-- The value given to the output. -/
  emitted : Option Word
  /-- The value added to the results. -/
  collected : Option Word

namespace Kernel

/-- The inputs from which a kernel takes its next values, one from each. The control unit takes
from any single input. -/
inductive Awaits : Kernel → List UInt8 → Prop where
  | collect (port : UInt8) : Awaits .control [port]
  | memoryOp : Awaits (.loadStore none) [Bank.opcodes]
  | load (remaining : Nat) : Awaits (.loadStore (some ⟨.load, remaining⟩)) [Bank.firstOperand]
  | store (remaining : Nat) :
      Awaits (.loadStore (some ⟨.store, remaining⟩)) [Bank.firstOperand, Bank.secondOperand]
  | arithmeticOp : Awaits (.arithmetic none) [Bank.opcodes]
  | operands (current : Repeated ArithmeticOp) :
      Awaits (.arithmetic (some current)) [Bank.firstOperand, Bank.secondOperand]
  | streamIn (offset written : Nat) : Awaits (.streamIn offset written) [Bank.firstOperand]
  | streamOut (offset : Nat) {count emitted : Nat} (left : emitted < count) :
      Awaits (.streamOut offset count emitted) []
  | reorder : Awaits .reorder [Bank.firstOperand]

/-- Whether the next firing of a kernel gives a value to the output. -/
def produces : Kernel → Bool
  | .loadStore (some current) => current.op = .load
  | .arithmetic (some _) | .streamOut .. | .reorder => true
  | .control | .loadStore none | .arithmetic none | .streamIn .. => false

/-- Whether a kernel needs a micro-op before it can do anything else. -/
def needsMicroOp : Kernel → Bool
  | .loadStore none | .arithmetic none => true
  | _ => false

/-- What a kernel does with the values it has taken, listed in the order of its inputs. -/
def react (unit : UInt8) (kernel : Kernel) (memory : Memory) (words : List Word) :
    Except Fault Reaction :=
  let first := words.getD 0 .zero
  let second := words.getD 1 .zero
  match kernel with
  | .control => .ok ⟨.control, memory, none, some first⟩
  | .reorder => .ok ⟨.reorder, memory, some first, none⟩
  | .streamIn offset written =>
    if offset + written < memory.size then
      .ok ⟨.streamIn offset (written + 1), memory.setIfInBounds (offset + written) first, none,
        none⟩
    else .error (.memoryOutOfBounds unit (offset + written) memory.size)
  | .streamOut offset count emitted =>
    match memory[offset + emitted]? with
    | some value => .ok ⟨.streamOut offset count (emitted + 1), memory, some value, none⟩
    | none => .error (.memoryOutOfBounds unit (offset + emitted) memory.size)
  | .loadStore none =>
    match MemoryOp.ofCode? first.opcode with
    | some op => .ok ⟨.loadStore (Repeated.ofCount? op first.repetitions), memory, none, none⟩
    | none => .error (.invalidMicroOp unit .loadStore first.opcode)
  | .loadStore (some current) =>
    match current.op with
    | .load =>
      match memory[first.toNat]? with
      | some value => .ok ⟨.loadStore current.next?, memory, some value, none⟩
      | none => .error (.memoryOutOfBounds unit first.toNat memory.size)
    | .store =>
      if first.toNat < memory.size then
        .ok ⟨.loadStore current.next?, memory.setIfInBounds first.toNat second, none, none⟩
      else .error (.memoryOutOfBounds unit first.toNat memory.size)
  | .arithmetic none =>
    match ArithmeticOp.ofCode? first.opcode with
    | some op => .ok ⟨.arithmetic (Repeated.ofCount? op first.repetitions), memory, none, none⟩
    | none => .error (.invalidMicroOp unit .arithmetic first.opcode)
  | .arithmetic (some current) =>
    match current.op.eval? first second with
    | some value => .ok ⟨.arithmetic current.next?, memory, some value, none⟩
    | none => .error (.divisionByZero unit)

theorem type_reset (kernel : Kernel) : kernel.reset.type = kernel.type := by
  cases kernel <;> rfl

/-- What a reaction has to do with the kernel and the memory that it comes from. -/
structure Allows (kernel : Kernel) (memory : Memory) (reaction : Reaction) : Prop where
  /-- The kernel is set back to the same as before. -/
  shape : reaction.kernel.reset = kernel.reset
  /-- Whether a value is produced was known before. -/
  emits : reaction.emitted.isSome = kernel.produces
  /-- Only the control unit collects. -/
  collects : kernel.type ≠ .control → reaction.collected = none
  size : reaction.memory.size = memory.size
  /-- Only load-store units and units that stream into memory change it. -/
  keeps : kernel.type ≠ .loadStore → kernel.type ≠ .streamIn → reaction.memory = memory

/-- What all reactions have in common; a kernel that does not react ends in a fault of kernels. -/
theorem react_spec (unit : UInt8) (kernel : Kernel) (memory : Memory) (words : List Word) :
    match kernel.react unit memory words with
    | .ok reaction => kernel.Allows memory reaction
    | .error fault => fault.isKernelFault = true := by
  cases kernel with
  | control => exact ⟨rfl, rfl, fun notControl => absurd rfl notControl, rfl, fun _ _ => rfl⟩
  | reorder => exact ⟨rfl, rfl, fun _ => rfl, rfl, fun _ _ => rfl⟩
  | streamIn offset written =>
    by_cases inside : offset + written < memory.size
    · simp only [react, inside, if_true]
      exact ⟨rfl, rfl, fun _ => rfl, Array.size_setIfInBounds, fun _ other => absurd rfl other⟩
    · simp only [react, inside, if_false]
      rfl
  | streamOut offset count emitted =>
    cases read : memory[offset + emitted]? with
    | none =>
      simp only [react, read]
      rfl
    | some value =>
      simp only [react, read]
      exact ⟨rfl, rfl, fun _ => rfl, rfl, fun _ _ => rfl⟩
  | loadStore current =>
    cases current with
    | none =>
      cases decoded : MemoryOp.ofCode? (words.getD 0 .zero).opcode with
      | none =>
        simp only [react, decoded]
        rfl
      | some op =>
        simp only [react, decoded]
        exact ⟨rfl, rfl, fun _ => rfl, rfl, fun other => absurd rfl other⟩
    | some current =>
      obtain ⟨op, remaining⟩ := current
      cases op with
      | load =>
        cases read : memory[(words.getD 0 .zero).toNat]? with
        | none =>
          simp only [react, read]
          rfl
        | some value =>
          simp only [react, read]
          exact ⟨rfl, rfl, fun _ => rfl, rfl, fun other => absurd rfl other⟩
      | store =>
        by_cases inside : (words.getD 0 .zero).toNat < memory.size
        · simp only [react, inside, if_true]
          exact ⟨rfl, rfl, fun _ => rfl, Array.size_setIfInBounds, fun other => absurd rfl other⟩
        · simp only [react, inside, if_false]
          rfl
  | arithmetic current =>
    cases current with
    | none =>
      cases decoded : ArithmeticOp.ofCode? (words.getD 0 .zero).opcode with
      | none =>
        simp only [react, decoded]
        rfl
      | some op =>
        simp only [react, decoded]
        exact ⟨rfl, rfl, fun _ => rfl, rfl, fun _ _ => rfl⟩
    | some current =>
      cases computed : current.op.eval? (words.getD 0 .zero) (words.getD 1 .zero) with
      | none =>
        simp only [react, computed]
        rfl
      | some value =>
        simp only [react, computed]
        exact ⟨rfl, rfl, fun _ => rfl, rfl, fun _ _ => rfl⟩

theorem allows_of_react {unit : UInt8} {kernel : Kernel} {memory : Memory} {words : List Word}
    {reaction : Reaction} (reacts : kernel.react unit memory words = .ok reaction) :
    kernel.Allows memory reaction := by
  have spec := react_spec unit kernel memory words
  rwa [reacts] at spec

theorem isKernelFault_of_react {unit : UInt8} {kernel : Kernel} {memory : Memory}
    {words : List Word} {fault : Fault} (fails : kernel.react unit memory words = .error fault) :
    fault.isKernelFault = true := by
  have spec := react_spec unit kernel memory words
  rwa [fails] at spec

/-- Units without access to memory react to their values alone. -/
theorem react_of_usesMemory {unit : UInt8} {kernel : Kernel} {memory : Memory} {words : List Word}
    {reaction : Reaction} (independent : kernel.type.usesMemory = false)
    (reacts : kernel.react unit memory words = .ok reaction) (other : Memory) :
    kernel.react unit other words = .ok { reaction with memory := other } := by
  cases kernel with
  | control | reorder =>
    obtain rfl := Except.ok.inj reacts
    rfl
  | arithmetic current =>
    cases current with
    | none =>
      cases decoded : ArithmeticOp.ofCode? (words.getD 0 .zero).opcode with
      | none =>
        simp only [react, decoded] at reacts
        cases reacts
      | some op =>
        simp only [react, decoded, Except.ok.injEq] at reacts ⊢
        subst reacts
        rfl
    | some current =>
      cases computed : current.op.eval? (words.getD 0 .zero) (words.getD 1 .zero) with
      | none =>
        simp only [react, computed] at reacts
        cases reacts
      | some value =>
        simp only [react, computed, Except.ok.injEq] at reacts ⊢
        subst reacts
        rfl
  | loadStore | streamIn | streamOut => cases independent

/-- The kernel of a control unit has no state. -/
theorem eq_control_of_type {kernel : Kernel} (type : kernel.type = .control) :
    kernel = .control := by
  cases kernel with
  | control => rfl
  | loadStore | arithmetic | streamIn | streamOut | reorder => cases type

/-- A kernel that produces values without a micro-op neither writes to memory nor collects. -/
theorem type_of_produces {kernel : Kernel} (produces : kernel.produces = true)
    (idle : kernel.isBusy = false) : kernel.type = .streamOut ∨ kernel.type = .reorder := by
  cases kernel with
  | streamOut => exact .inl rfl
  | reorder => exact .inr rfl
  | control | streamIn => cases produces
  | loadStore current | arithmetic current =>
    cases current with
    | none => cases produces
    | some => cases idle

/-- The inputs that a kernel waits for are different ones. -/
theorem Awaits.nodup {kernel : Kernel} {ports : List UInt8} (awaits : kernel.Awaits ports) :
    ports.Nodup := by
  cases awaits <;> simp [Bank.firstOperand, Bank.secondOperand]

/-- Apart from the control unit, the state of a kernel tells which inputs it waits for. -/
theorem Awaits.unique {kernel : Kernel} {ports others : List UInt8}
    (notControl : kernel ≠ .control) (awaits : kernel.Awaits ports)
    (awaitsOthers : kernel.Awaits others) : ports = others := by
  cases awaits with
  | collect port => exact absurd rfl notControl
  | memoryOp | load | store | arithmeticOp | operands | streamIn | streamOut | reorder =>
    cases awaitsOthers
    rfl

end Kernel

/-! ## The firings of a step -/

namespace Workspace

/-- Whether a kernel finds what it needs to fire: a value on each of its inputs, and room for the
value it is about to produce. -/
def Ready (work : Workspace) (ports : List UInt8) : Prop :=
  (work.kernel.produces = true → work.buffers.hasRoom = true) ∧
    ∀ port ∈ ports, work.buffers.ready port = true

end Workspace

namespace Kernel

/-- What a part of a kernel's step can come to. -/
inductive Outcome (unit : UInt8) (work : Workspace) : Stepped Workspace → Prop where
  /-- Nothing happens, because something is missing. -/
  | idle (blocked : ∀ ports, work.kernel.Awaits ports → ¬work.Ready ports) :
      Outcome unit work (.idle work)
  /-- The kernel takes its values and acts on them. -/
  | fired (taken : List (UInt8 × Slot)) (words : List Word) (reaction : Reaction)
      {retired after : Bank} (awaits : work.kernel.Awaits (taken.map (·.1)))
      (room : work.kernel.produces = true → work.buffers.hasRoom = true)
      (holds : taken.map (·.2.value?) = words.map some)
      (retires : work.buffers.Retires taken retired)
      (reacts : work.kernel.react unit work.memory words = .ok reaction)
      (emits : retired.Emits reaction.emitted after) :
      Outcome unit work (.progress
        ⟨reaction.kernel, after, reaction.memory, work.results ++ reaction.collected.toArray⟩)
  /-- The kernel takes its values and cannot act on them; they are lost. -/
  | faulted (taken : List (UInt8 × Slot)) (words : List Word) {retired : Bank} {fault : Fault}
      (awaits : work.kernel.Awaits (taken.map (·.1)))
      (room : work.kernel.produces = true → work.buffers.hasRoom = true)
      (holds : taken.map (·.2.value?) = words.map some)
      (retires : work.buffers.Retires taken retired)
      (reacts : work.kernel.react unit work.memory words = .error fault) :
      Outcome unit work (.fault { work with buffers := retired } fault)

/-- An input that is not ready stops a firing. -/
theorem not_ready_of_take? {work : Workspace} {port : UInt8} {ports : List UInt8}
    (nothing : work.buffers.take? port = none) (member : port ∈ ports) : ¬work.Ready ports := by
  intro ready
  have notReady := Bank.take?_eq_none_iff.mp nothing
  rw [ready.2 port member] at notReady
  exact absurd notReady (by decide)

theorem not_ready_of_takeOperands? {work : Workspace}
    (nothing : work.buffers.takeOperands? = none) :
    ¬work.Ready [Bank.firstOperand, Bank.secondOperand] := by
  intro ready
  exact Bank.takeOperands?_eq_none_iff.mp nothing
    ⟨ready.2 _ (by simp), ready.2 _ (by simp)⟩

/-- Taking the next micro-op is at most one firing. -/
theorem fetch_outcome (unit : UInt8) {work : Workspace}
    (needs : work.kernel.needsMicroOp = true) : Outcome unit work (fetch unit work) := by
  obtain ⟨kernel, buffers, memory, results⟩ := work
  cases kernel with
  | loadStore current =>
    cases current with
    | some current => simp [needsMicroOp] at needs
    | none =>
      cases taken : buffers.take? Bank.opcodes with
      | none =>
        simp only [fetch, taken]
        refine .idle fun ports awaits => ?_
        cases awaits
        exact not_ready_of_take? taken (by simp)
      | some result =>
        obtain ⟨word, retired⟩ := result
        obtain ⟨slot, holds, retires⟩ := Bank.retires_of_take? taken
        cases decoded : MemoryOp.ofCode? word.opcode with
        | none =>
          simp only [fetch, taken, decoded]
          exact .faulted [(_, slot)] [word] .memoryOp (by simp [produces]) (by simp [holds]) retires
            (by simp [react, decoded])
        | some op =>
          simp only [fetch, taken, decoded]
          have fired : Outcome unit ⟨.loadStore none, buffers, memory, results⟩ _ :=
            .fired [(_, slot)] [word]
              ⟨.loadStore (Repeated.ofCount? op word.repetitions), memory, none, none⟩ .memoryOp
              (by simp [produces]) (by simp [holds]) retires (by simp [react, decoded])
              (Bank.Emits.nothing retired)
          simpa using fired
  | arithmetic current =>
    cases current with
    | some current => simp [needsMicroOp] at needs
    | none =>
      cases taken : buffers.take? Bank.opcodes with
      | none =>
        simp only [fetch, taken]
        refine .idle fun ports awaits => ?_
        cases awaits
        exact not_ready_of_take? taken (by simp)
      | some result =>
        obtain ⟨word, retired⟩ := result
        obtain ⟨slot, holds, retires⟩ := Bank.retires_of_take? taken
        cases decoded : ArithmeticOp.ofCode? word.opcode with
        | none =>
          simp only [fetch, taken, decoded]
          exact .faulted [(_, slot)] [word] .arithmeticOp (by simp [produces]) (by simp [holds])
            retires (by simp [react, decoded])
        | some op =>
          simp only [fetch, taken, decoded]
          have fired : Outcome unit ⟨.arithmetic none, buffers, memory, results⟩ _ :=
            .fired [(_, slot)] [word]
              ⟨.arithmetic (Repeated.ofCount? op word.repetitions), memory, none, none⟩
              .arithmeticOp (by simp [produces]) (by simp [holds]) retires
              (by simp [react, decoded]) (Bank.Emits.nothing retired)
          simpa using fired
  | control | streamIn | streamOut | reorder => simp [needsMicroOp] at needs

/-- A full output stops a firing that would produce a value. -/
theorem not_ready_of_full {work : Workspace} {ports : List UInt8}
    (produces : work.kernel.produces = true) (full : work.buffers.hasRoom = false) :
    ¬work.Ready ports := by
  intro ready
  rw [ready.1 produces] at full
  exact absurd full (by decide)

/-- The word at an address that is not in memory cannot be replaced, any other one can. -/
theorem writeWord_inside (unit : UInt8) {address : Nat} (value : Word) (next : Kernel)
    {work : Workspace} (inside : address < work.memory.size) :
    writeWord unit address value next work =
      .progress ⟨next, work.buffers, work.memory.setIfInBounds address value, work.results⟩ := by
  obtain ⟨kernel, buffers, memory, results⟩ := work
  simp only [writeWord, dif_pos inside, Array.setIfInBounds]

theorem writeWord_outside (unit : UInt8) {address : Nat} (value : Word) (next : Kernel)
    {work : Workspace} (outside : ¬address < work.memory.size) :
    writeWord unit address value next work =
      .fault work (.memoryOutOfBounds unit address work.memory.size) := by
  obtain ⟨kernel, buffers, memory, results⟩ := work
  simp only [writeWord, dif_neg outside]

section Elements

variable (unit : UInt8) (buffers : Bank) (memory : Memory) (results : Array Word)

theorem passOn_outcome :
    Outcome unit ⟨.reorder, buffers, memory, results⟩
      (passOn ⟨.reorder, buffers, memory, results⟩) := by
  cases room : buffers.hasRoom with
  | false =>
    simp only [passOn, room, Bool.false_eq_true, if_false]
    exact .idle fun ports _ => not_ready_of_full rfl room
  | true =>
    cases taken : buffers.take? Bank.firstOperand with
    | none =>
      simp only [passOn, room, taken, if_true]
      refine .idle fun ports awaits => ?_
      cases awaits
      exact not_ready_of_take? taken (by simp)
    | some result =>
      obtain ⟨word, retired⟩ := result
      obtain ⟨slot, holds, retires⟩ := Bank.retires_of_take? taken
      have stillRoom : retired.hasRoom = true := by
        simpa [Bank.hasRoom, Bank.output?, retires.outputs] using room
      obtain ⟨after, emitted, emits⟩ := Bank.emit_of_hasRoom word stillRoom
      simp only [passOn, room, taken, emitted, if_true]
      have fired : Outcome unit ⟨.reorder, buffers, memory, results⟩ _ :=
        .fired [(_, slot)] [word] ⟨.reorder, memory, some word, none⟩ .reorder (fun _ => room)
          (by simp [holds]) retires (by simp [react]) emits
      simpa [Except.map] using fired

theorem writeNext_outcome (offset written : Nat) :
    Outcome unit ⟨.streamIn offset written, buffers, memory, results⟩
      (writeNext unit offset written ⟨.streamIn offset written, buffers, memory, results⟩) := by
  cases taken : buffers.take? Bank.firstOperand with
  | none =>
    simp only [writeNext, taken]
    refine .idle fun ports awaits => ?_
    cases awaits
    exact not_ready_of_take? taken (by simp)
  | some result =>
    obtain ⟨word, retired⟩ := result
    obtain ⟨slot, holds, retires⟩ := Bank.retires_of_take? taken
    simp only [writeNext, taken]
    by_cases inside : offset + written < memory.size
    · rw [writeWord_inside unit word _ inside]
      have fired : Outcome unit ⟨.streamIn offset written, buffers, memory, results⟩ _ :=
        .fired [(_, slot)] [word] ⟨.streamIn offset (written + 1),
            memory.setIfInBounds (offset + written) word, none, none⟩
          (.streamIn offset written) (by simp [produces]) (by simp [holds]) retires
          (by simp [react, inside]) (Bank.Emits.nothing retired)
      simpa using fired
    · rw [writeWord_outside unit word _ inside]
      exact .faulted [(_, slot)] [word] (.streamIn offset written) (by simp [produces])
        (by simp [holds]) retires (by simp [react, inside])

theorem emitNext_outcome (offset count emitted : Nat) :
    Outcome unit ⟨.streamOut offset count emitted, buffers, memory, results⟩
      (emitNext unit offset count emitted
        ⟨.streamOut offset count emitted, buffers, memory, results⟩) := by
  cases room : buffers.hasRoom with
  | false =>
    simp only [emitNext, room, Bool.and_false, Bool.false_eq_true, if_false]
    exact .idle fun ports _ => not_ready_of_full rfl room
  | true =>
    by_cases left : emitted < count
    · simp only [emitNext, room, left, decide_true, Bool.and_true, if_true]
      cases read : memory[offset + emitted]? with
      | none =>
        exact .faulted [] [] (.streamOut offset left) (fun _ => room) rfl
          (Bank.Retires.nothing buffers) (by simp [react, read])
      | some value =>
        obtain ⟨after, given, emits⟩ := Bank.emit_of_hasRoom value room
        have fired : Outcome unit ⟨.streamOut offset count emitted, buffers, memory, results⟩ _ :=
          .fired [] [] ⟨.streamOut offset count (emitted + 1), memory, some value, none⟩
            (.streamOut offset left) (fun _ => room) rfl (Bank.Retires.nothing buffers)
            (by simp [react, read]) emits
        simpa [given, Except.map] using fired
    · simp only [emitNext, left, decide_false, Bool.false_and, Bool.false_eq_true, if_false]
      refine .idle fun ports awaits => ?_
      cases awaits
      exact absurd ‹emitted < count› left

theorem load_outcome (remaining : Nat) :
    Outcome unit ⟨.loadStore (some ⟨.load, remaining⟩), buffers, memory, results⟩
      (load unit (Repeated.next? ⟨.load, remaining⟩)
        ⟨.loadStore (some ⟨.load, remaining⟩), buffers, memory, results⟩) := by
  cases room : buffers.hasRoom with
  | false =>
    simp only [load, room, Bool.false_eq_true, if_false]
    exact .idle fun ports _ => not_ready_of_full rfl room
  | true =>
    cases taken : buffers.take? Bank.firstOperand with
    | none =>
      simp only [load, room, taken, if_true]
      refine .idle fun ports awaits => ?_
      cases awaits
      exact not_ready_of_take? taken (by simp)
    | some result =>
      obtain ⟨word, retired⟩ := result
      obtain ⟨slot, holds, retires⟩ := Bank.retires_of_take? taken
      simp only [load, room, taken, if_true]
      cases read : memory[word.toNat]? with
      | none =>
        exact .faulted [(_, slot)] [word] (.load remaining) (fun _ => room) (by simp [holds])
          retires (by simp [react, read])
      | some value =>
        have stillRoom : retired.hasRoom = true := by
          simpa [Bank.hasRoom, Bank.output?, retires.outputs] using room
        obtain ⟨after, emitted, emits⟩ := Bank.emit_of_hasRoom value stillRoom
        have fired :
            Outcome unit ⟨.loadStore (some ⟨.load, remaining⟩), buffers, memory, results⟩ _ :=
          .fired [(_, slot)] [word]
            ⟨.loadStore (Repeated.next? ⟨.load, remaining⟩), memory, some value, none⟩
            (.load remaining) (fun _ => room) (by simp [holds]) retires (by simp [react, read])
            emits
        simpa [emitted, Except.map] using fired

theorem store_outcome (remaining : Nat) :
    Outcome unit ⟨.loadStore (some ⟨.store, remaining⟩), buffers, memory, results⟩
      (store unit (Repeated.next? ⟨.store, remaining⟩)
        ⟨.loadStore (some ⟨.store, remaining⟩), buffers, memory, results⟩) := by
  cases taken : buffers.takeOperands? with
  | none =>
    simp only [store, taken]
    refine .idle fun ports awaits => ?_
    cases awaits
    exact not_ready_of_takeOperands? taken
  | some result =>
    obtain ⟨address, value, retired⟩ := result
    obtain ⟨slot, other, holds, holds', retires⟩ := Bank.retires_of_takeOperands? taken
    simp only [store, taken]
    by_cases inside : address.toNat < memory.size
    · rw [writeWord_inside unit value _ inside]
      have fired :
          Outcome unit ⟨.loadStore (some ⟨.store, remaining⟩), buffers, memory, results⟩ _ :=
        .fired [(_, slot), (_, other)] [address, value]
          ⟨.loadStore (Repeated.next? ⟨.store, remaining⟩),
            memory.setIfInBounds address.toNat value, none, none⟩
          (.store remaining) (by simp [produces]) (by simp [holds, holds']) retires
          (by simp [react, inside]) (Bank.Emits.nothing retired)
      simpa using fired
    · rw [writeWord_outside unit value _ inside]
      exact .faulted [(_, slot), (_, other)] [address, value] (.store remaining)
        (by simp [produces]) (by simp [holds, holds']) retires (by simp [react, inside])

theorem combine_outcome (current : Repeated ArithmeticOp) :
    Outcome unit ⟨.arithmetic (some current), buffers, memory, results⟩
      (combine unit current.op current.next?
        ⟨.arithmetic (some current), buffers, memory, results⟩) := by
  cases room : buffers.hasRoom with
  | false =>
    simp only [combine, room, Bool.false_eq_true, if_false]
    exact .idle fun ports _ => not_ready_of_full rfl room
  | true =>
    cases taken : buffers.takeOperands? with
    | none =>
      simp only [combine, room, taken, if_true]
      refine .idle fun ports awaits => ?_
      cases awaits
      exact not_ready_of_takeOperands? taken
    | some result =>
      obtain ⟨first, second, retired⟩ := result
      obtain ⟨slot, other, holds, holds', retires⟩ := Bank.retires_of_takeOperands? taken
      simp only [combine, room, taken, if_true]
      cases computed : current.op.eval? first second with
      | none =>
        have faulted : Outcome unit ⟨.arithmetic (some current), buffers, memory, results⟩
            (.fault _ (.divisionByZero unit)) :=
          .faulted [(_, slot), (_, other)] [first, second] (.operands current) (fun _ => room)
            (by simp [holds, holds']) retires (by simp [react, computed])
        simpa [ArithmeticOp.compute, computed, bind, Except.bind] using faulted
      | some value =>
        have stillRoom : retired.hasRoom = true := by
          simpa [Bank.hasRoom, Bank.output?, retires.outputs] using room
        obtain ⟨after, emitted, emits⟩ := Bank.emit_of_hasRoom value stillRoom
        have fired : Outcome unit ⟨.arithmetic (some current), buffers, memory, results⟩ _ :=
          .fired [(_, slot), (_, other)] [first, second]
            ⟨.arithmetic current.next?, memory, some value, none⟩ (.operands current)
            (fun _ => room) (by simp [holds, holds']) retires (by simp [react, computed]) emits
        simpa [ArithmeticOp.compute, computed, emitted, bind, Except.bind, pure, Except.pure] using
          fired

end Elements

/-- Handling an element of work is at most one firing, unless it is that of the control unit. -/
theorem perform_outcome (unit : UInt8) {work : Workspace}
    (supplied : work.kernel.needsMicroOp = false) (notControl : work.kernel ≠ .control) :
    Outcome unit work (perform unit work) := by
  obtain ⟨kernel, buffers, memory, results⟩ := work
  cases kernel with
  | control => exact absurd rfl notControl
  | reorder => exact passOn_outcome unit buffers memory results
  | streamIn offset written => exact writeNext_outcome unit buffers memory results offset written
  | streamOut offset count emitted =>
    exact emitNext_outcome unit buffers memory results offset count emitted
  | loadStore current =>
    cases current with
    | none => simp [needsMicroOp] at supplied
    | some current =>
      obtain ⟨op, remaining⟩ := current
      cases op with
      | load => exact load_outcome unit buffers memory results remaining
      | store => exact store_outcome unit buffers memory results remaining
  | arithmetic current =>
    cases current with
    | none => simp [needsMicroOp] at supplied
    | some current => exact combine_outcome unit buffers memory results current

/-- A kernel that needs no micro-op fetches none, and one that needs one does nothing else. -/
theorem fetch_of_supplied (unit : UInt8) {work : Workspace}
    (supplied : work.kernel.needsMicroOp = false) : fetch unit work = .idle work := by
  obtain ⟨kernel, buffers, memory, results⟩ := work
  cases kernel with
  | loadStore current | arithmetic current =>
    cases current with
    | none => simp [needsMicroOp] at supplied
    | some current => rfl
  | control | streamIn | streamOut | reorder => rfl

theorem perform_of_needsMicroOp (unit : UInt8) {work : Workspace}
    (needs : work.kernel.needsMicroOp = true) : perform unit work = .idle work := by
  obtain ⟨kernel, buffers, memory, results⟩ := work
  cases kernel with
  | loadStore current | arithmetic current =>
    cases current with
    | none => rfl
    | some current => simp [needsMicroOp] at needs
  | control | streamIn | streamOut | reorder => simp [needsMicroOp] at needs

end Kernel
end MoveMachine
