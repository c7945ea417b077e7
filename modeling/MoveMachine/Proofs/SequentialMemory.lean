import MoveMachine.Proofs.Kernel.Running
import MoveMachine.Proofs.Kernel.Repetition
import MoveMachine.Proofs.Machine.Stillness

/-!
# The load-store unit is a sequential memory machine

A load-store unit takes micro-ops, addresses and values from three inputs, and nothing is
known of the order in which these are supplied. The reference is a machine that has all of
them from the beginning and executes the operations one after the other
(`MemoryOp.executeAll?`). As long as nobody else writes to the memory, the unit has the
memory of this machine, and it has given the words that this machine has loaded
(`Workspace.serves_sequentially`).

The invariant is again one of lists and of the memory only (`MemoryOp.Serves`). It says
that the machine has used up the values taken so far. A store takes one more, and that the
executions before it do not mind is the one fact about the machine that is needed
(`MemoryOp.executeAll?_supply`).
-/

set_option autoImplicit false

namespace MoveMachine

/-! ## The reference -/

/-- What a sequential memory machine works on. -/
structure SequentialMemory where
  memory : Memory
  /-- The words that have been loaded. -/
  loaded : List Word
  /-- The values that are still to be stored. -/
  supply : List Word

namespace MemoryOp

/-- Executes an operation at an address. A load gives the word that is there, and a store takes the
next value and puts it there. -/
def execute? (op : MemoryOp) (address : Word) (machine : SequentialMemory) :
    Option SequentialMemory :=
  match op with
  | .load => machine.memory[address.toNat]?.map fun value =>
    { machine with loaded := machine.loaded ++ [value] }
  | .store =>
    match machine.supply with
    | [] => none
    | value :: later =>
      if address.toNat < machine.memory.size then
        some { machine with
          memory := machine.memory.setIfInBounds address.toNat value, supply := later }
      else none

/-- Executes operations one after the other, each at its own address. -/
def executeAll? (tasks : List (MemoryOp × Word)) (machine : SequentialMemory) :
    Option SequentialMemory :=
  tasks.foldlM (fun machine task => task.1.execute? task.2 machine) machine

variable {machine middle after : SequentialMemory}

theorem executeAll?_append {tasks : List (MemoryOp × Word)} {op : MemoryOp} {address : Word}
    (before : executeAll? tasks machine = some middle)
    (executes : op.execute? address middle = some after) :
    executeAll? (tasks ++ [(op, address)]) machine = some after := by
  rw [executeAll?] at before ⊢
  rw [List.foldlM_append, before]
  simp [executes]

theorem execute?_supply {op : MemoryOp} {address : Word} (more : List Word)
    (executes : op.execute? address machine = some after) :
    op.execute? address { machine with supply := machine.supply ++ more } =
      some { after with supply := after.supply ++ more } := by
  obtain ⟨memory, loaded, supply⟩ := machine
  cases op with
  | load =>
    rw [execute?] at executes ⊢
    obtain ⟨value, read, rfl⟩ := Option.map_eq_some_iff.mp executes
    rw [read]
    rfl
  | store =>
    cases supply with
    | nil => cases executes
    | cons value later =>
      simp only [execute?, List.cons_append] at executes ⊢
      split at executes
      · rename_i inside
        obtain rfl := Option.some.inj executes
        rw [if_pos inside]
      · cases executes

/-- Values that come later do not matter to the executions before. -/
theorem executeAll?_supply {tasks : List (MemoryOp × Word)} (more : List Word)
    (executes : executeAll? tasks machine = some after) :
    executeAll? tasks { machine with supply := machine.supply ++ more } =
      some { after with supply := after.supply ++ more } := by
  induction tasks generalizing machine with
  | nil =>
    obtain rfl := Option.some.inj executes
    rfl
  | cons task tasks ih =>
    rw [executeAll?, List.foldlM_cons] at executes ⊢
    obtain ⟨middle, first, rest⟩ := Option.bind_eq_some_iff.mp executes
    rw [execute?_supply more first]
    exact ih rest

/-- There are two opcodes. -/
theorem ofCode?_eq_none_iff {code : Nat} : ofCode? code = none ↔ code ≠ 1 ∧ code ≠ 2 := by
  rw [Option.eq_none_iff_forall_ne_some]
  constructor
  · intro unknown
    exact ⟨fun isLoad => unknown .load (ofCode?_eq_some_iff.mpr isLoad.symm),
      fun isStore => unknown .store (ofCode?_eq_some_iff.mpr isStore.symm)⟩
  · rintro ⟨notLoad, notStore⟩ op found
    obtain rfl := ofCode?_eq_some_iff.mp found
    cases op with
    | load => exact notLoad rfl
    | store => exact notStore rfl

/-! ## The invariant -/

/-- The memory, and the words given, are those that come from executing the operations asked for at
the addresses taken, with the values taken, and the current micro-op is what remains of the
operations. -/
structure Serves (memory : Memory) (words addresses values pushed : List Word) (after : Memory)
    (current : Option (Repeated MemoryOp)) : Prop where
  decodes : ∀ word ∈ words, (ofCode? word.opcode).isSome = true
  executes : executeAll? ((Word.asked ofCode? words).zip addresses) ⟨memory, [], values⟩ =
    some ⟨after, pushed, []⟩
  remains : Remains (Word.asked ofCode? words) addresses.length current

namespace Serves

variable {memory current : Memory} {words addresses values pushed : List Word} {remaining : Nat}

theorem start (memory : Memory) : Serves memory [] [] [] [] memory none where
  decodes := nofun
  executes := rfl
  remains := .start

/-- A micro-op that is taken asks for operations behind all others. -/
theorem fetch (serves : Serves memory words addresses values pushed current none) {word : Word}
    {op : MemoryOp} (decodes : ofCode? word.opcode = some op) :
    Serves memory (words ++ [word]) addresses values pushed current
      (Repeated.ofCount? op word.repetitions) where
  decodes := Word.decodes_append serves.decodes decodes
  executes := by
    rw [Word.asked_append _ decodes, zip_of_more _ serves.remains.bounded]
    exact serves.executes
  remains := by
    rw [Word.asked_append _ decodes]
    exact serves.remains.ask op word.repetitions

/-- A load gives the word that is there by now. -/
theorem load (serves : Serves memory words addresses values pushed current
    (some ⟨.load, remaining⟩)) {address value : Word}
    (read : current[address.toNat]? = some value) :
    Serves memory words (addresses ++ [address]) values (pushed ++ [value]) current
      (Repeated.next? ⟨.load, remaining⟩) where
  decodes := serves.decodes
  executes := by
    rw [zip_of_next address serves.remains.getElem?_eq]
    apply executeAll?_append serves.executes
    rw [execute?, read]
    rfl
  remains := by
    rw [List.length_append]
    exact serves.remains.execute

/-- A store puts the value taken for it there. -/
theorem store (serves : Serves memory words addresses values pushed current
    (some ⟨.store, remaining⟩)) {address : Word} (value : Word)
    (inside : address.toNat < current.size) :
    Serves memory words (addresses ++ [address]) (values ++ [value]) pushed
      (current.setIfInBounds address.toNat value) (Repeated.next? ⟨.store, remaining⟩) where
  decodes := serves.decodes
  executes := by
    rw [zip_of_next address serves.remains.getElem?_eq]
    -- the executions before leave nothing but the new value
    apply executeAll?_append (executeAll?_supply [value] serves.executes)
    simp only [execute?, List.nil_append]
    rw [if_pos inside]
  remains := by
    rw [List.length_append]
    exact serves.remains.execute

end Serves

end MemoryOp

/-! ## The firings of a load-store unit -/

namespace Kernel

open MemoryOp (ofCode?)

variable {unit : UInt8} {memory : Memory} {progress next : Progress}
  {current : Option (Repeated MemoryOp)}

/-- A load-store unit has done what it was asked for. -/
def Serves (memory : Memory) (progress : Progress) (current : Option (Repeated MemoryOp)) : Prop :=
  progress.kernel = .loadStore current ∧
    MemoryOp.Serves memory (progress.consumed Bank.opcodes) (progress.consumed Bank.firstOperand)
      (progress.consumed Bank.secondOperand) progress.pushed progress.memory current

theorem Serves.advances (serves : Serves memory progress current)
    (advances : Advances unit progress next) : ∃ further, Serves memory next further := by
  obtain ⟨kernel, account⟩ := serves
  cases advances with
  | @intro ports words reaction awaits supplied reacts =>
    rw [kernel] at awaits reacts
    cases awaits with
    | memoryOp =>
      obtain ⟨word, rfl⟩ := List.length_eq_one_iff.mp supplied
      simp only [react] at reacts
      split at reacts
      · rename_i op decodes
        obtain rfl := Except.ok.inj reacts
        refine ⟨_, rfl, ?_⟩
        simp (disch := decide) only [Progress.fire, Progress.fed_of_not_mem, Option.toList_none,
          List.append_nil]
        exact account.fetch decodes
      · cases reacts
    | load remaining =>
      obtain ⟨address, rfl⟩ := List.length_eq_one_iff.mp supplied
      simp only [react] at reacts
      split at reacts
      · rename_i value read
        obtain rfl := Except.ok.inj reacts
        refine ⟨_, rfl, ?_⟩
        simp (disch := decide) only [Progress.fire, Progress.fed_of_not_mem, Option.toList_some]
        exact account.load read
      · cases reacts
    | store remaining =>
      obtain ⟨address, value, rfl⟩ := List.length_eq_two.mp supplied
      simp only [react] at reacts
      split at reacts
      · rename_i inside
        obtain rfl := Except.ok.inj reacts
        refine ⟨_, rfl, ?_⟩
        simp (disch := decide) only [Progress.fire, Progress.fed_of_not_mem, Option.toList_none,
          List.append_nil]
        exact account.store value inside
      · cases reacts

/-- As long as nobody else writes to the memory, a load-store unit has done what it was asked for,
however it has fired. -/
theorem Reaches.serves (reaches : Reaches unit False (.loadStore none) memory progress) :
    ∃ current, Serves memory progress current := by
  induction reaches with
  | start => exact ⟨none, rfl, .start memory⟩
  | fire earlier advances ih =>
    obtain ⟨current, serves⟩ := ih
    exact serves.advances advances
  | disturb earlier isDisturbed => exact isDisturbed.elim

/-- Why a load-store unit fails to fire: what it was told to do next is no operation, or the address
that comes next is not in memory. -/
inductive Refused (unit : UInt8) (progress next : Progress) : Fault → Prop where
  | opcode (word : Word) (notLoad : word.opcode ≠ 1) (notStore : word.opcode ≠ 2)
      (usedUp : (progress.consumed Bank.firstOperand).length =
        (Word.asked ofCode? (progress.consumed Bank.opcodes)).length)
      (consumed : next.consumed = Function.update progress.consumed Bank.opcodes
        (progress.consumed Bank.opcodes ++ [word]))
      (holds : next.kernel = .loadStore none) :
      Refused unit progress next (.invalidMicroOp unit .loadStore word.opcode)
  | address (op : MemoryOp) (address : Word) (outside : progress.memory.size ≤ address.toNat)
      (words : progress.consumed Bank.opcodes <+: next.consumed Bank.opcodes)
      (isNext : (Word.asked ofCode? (next.consumed Bank.opcodes))[
        (progress.consumed Bank.firstOperand).length]? = some op)
      (addresses : next.consumed Bank.firstOperand =
        progress.consumed Bank.firstOperand ++ [address])
      (loads : op = .load →
        next.consumed Bank.secondOperand = progress.consumed Bank.secondOperand)
      (stores : op = .store → ∃ value,
        next.consumed Bank.secondOperand = progress.consumed Bank.secondOperand ++ [value])
      (holds : next.kernel = .loadStore (some ⟨op,
        (Word.asked ofCode? (next.consumed Bank.opcodes)).length -
          (progress.consumed Bank.firstOperand).length⟩)) :
      Refused unit progress next (.memoryOutOfBounds unit address.toNat progress.memory.size)

/-- An address that is not in memory is refused, whether a word is to be read there or written. -/
theorem Serves.refused {middle : Progress} {repeated : Repeated MemoryOp} {address : Word}
    (serves : Serves memory middle (some repeated)) (prepared : progress.Prepared middle)
    (outside : middle.memory.size ≤ address.toNat) (kernel : next.kernel = middle.kernel)
    (words : next.consumed Bank.opcodes = middle.consumed Bank.opcodes)
    (addresses : next.consumed Bank.firstOperand = middle.consumed Bank.firstOperand ++ [address])
    (loads : repeated.op = .load →
      next.consumed Bank.secondOperand = middle.consumed Bank.secondOperand)
    (stores : repeated.op = .store → ∃ value,
      next.consumed Bank.secondOperand = middle.consumed Bank.secondOperand ++ [value]) :
    Refused unit progress next (.memoryOutOfBounds unit address.toNat middle.memory.size) := by
  obtain ⟨holds, account⟩ := serves
  have sameAddresses := prepared.operands _ Bank.firstOperand_ne_opcodes
  have sameValues := prepared.operands _ Bank.secondOperand_ne_opcodes
  rw [sameAddresses] at addresses
  rw [sameValues] at loads stores
  rw [prepared.memory] at outside ⊢
  refine .address repeated.op address outside ?_ ?_ addresses loads stores ?_
  · rw [words]
    exact prepared.opcodes
  · rw [words, ← sameAddresses]
    exact account.remains.getElem?_eq
  · rw [kernel, holds, words, ← sameAddresses, ← account.remains.remaining_eq]

theorem Serves.breaks {fault : Fault} (serves : Serves memory progress current)
    (breaks : Breaks unit fault progress next) : Refused unit progress next fault := by
  cases breaks with
  | @intro middle ports words prepares awaits supplied reacts =>
    have prepared := prepares.spec
    obtain ⟨further, kernel, account⟩ :=
      prepares.keeps (∃ further, Serves memory · further) ⟨current, serves⟩ serves.advances
    rw [kernel] at awaits reacts
    cases awaits with
    | memoryOp =>
      obtain ⟨word, rfl⟩ := List.length_eq_one_iff.mp supplied
      -- had a micro-op been fetched before, the step would not look for another one
      obtain rfl : middle = progress := by
        apply prepared.unfetched
        rw [kernel]
        rfl
      simp only [react] at reacts
      split at reacts
      · cases reacts
      · rename_i unknown
        obtain rfl := Except.error.inj reacts
        obtain ⟨notLoad, notStore⟩ := MemoryOp.ofCode?_eq_none_iff.mp unknown
        exact .opcode word notLoad notStore account.remains.length_eq (middle.fed_one _ word) kernel
    | load remaining =>
      obtain ⟨address, rfl⟩ := List.length_eq_one_iff.mp supplied
      simp only [react] at reacts
      split at reacts
      · cases reacts
      · rename_i unread
        obtain rfl := Except.error.inj reacts
        exact Serves.refused ⟨kernel, account⟩ prepared (Array.getElem?_eq_none_iff.mp unread) rfl
          (middle.fed_of_not_mem _ (by decide)) rfl (fun _ => middle.fed_of_not_mem _ (by decide))
          fun isStore => absurd isStore MemoryOp.noConfusion
    | store remaining =>
      obtain ⟨address, value, rfl⟩ := List.length_eq_two.mp supplied
      simp only [react] at reacts
      split at reacts
      · cases reacts
      · rename_i outside
        obtain rfl := Except.error.inj reacts
        exact Serves.refused ⟨kernel, account⟩ prepared (Nat.le_of_not_lt outside) rfl
          (middle.fed_of_not_mem _ (by decide)) rfl
          (fun isLoad => absurd isLoad MemoryOp.noConfusion) fun _ => ⟨value, rfl⟩

end Kernel

namespace Workspace

/-- As long as no step has ended in a fault and nobody else has written to the memory, a load-store
unit has the memory and has given the words that come from executing, one after the other, the
operations that it was asked for at the addresses that it has taken, and the stores have used up the
values that it has taken. It is busy as long as operations are left, and then holds the next one
with their number. What it has taken are the oldest values of its inputs, in order. A step that
makes no progress has found nothing that could be done. A step changes at most one word, and one
that ends in a fault does so because of what comes next, and changes nothing outside. -/
theorem serves_sequentially {unit : UInt8} {depth : Depth} {memory : Memory} {results : Array Word}
    {history : History} {work : Workspace}
    (evolves : Evolves unit ⟨.loadStore none, .empty unit .loadStore depth, memory, results⟩
      history work)
    (faultless : history.Faultless) (undisturbed : history.Undisturbed) :
    let words := history.consumed work.buffers Bank.opcodes
    let ops := Word.asked MemoryOp.ofCode? words
    let addresses := history.consumed work.buffers Bank.firstOperand
    let values := history.consumed work.buffers Bank.secondOperand
    history.TakesInOrder work.buffers ∧
    (∀ word ∈ words, (MemoryOp.ofCode? word.opcode).isSome = true) ∧
    addresses.length ≤ ops.length ∧
    MemoryOp.executeAll? (ops.zip addresses) ⟨memory, [], values⟩ =
      some ⟨work.memory, history.pushed work.buffers, []⟩ ∧
    (work.kernel.isBusy = true ↔ addresses.length < ops.length) ∧
    work.kernel = .loadStore (ops[addresses.length]?.map (⟨·, ops.length - addresses.length⟩)) ∧
    (Kernel.step unit work).Rests work
      (work.buffers.hasMarker = false ∧ Kernel.Blocked work) ∧
    ((Kernel.step unit work).state.memory = work.memory ∨ ∃ place value,
      (Kernel.step unit work).state.memory = work.memory.setIfInBounds place value) ∧
    ∀ fault, (Kernel.step unit work).report = .error fault →
      work.SameOutside (Kernel.step unit work).state ∧
      history.TakesInOrder (Kernel.step unit work).state.buffers ∧
      Kernel.Refused unit (history.progress work) (history.progress (Kernel.step unit work).state)
        fault := by
  intro words ops addresses values
  have notControl : Kernel.loadStore none ≠ .control := Kernel.noConfusion
  have traces : Traces unit False (.loadStore none) memory history work :=
    evolves.traces notControl (Bank.slotsAt_empty unit .loadStore depth)
      (Bank.valuesAt_empty unit .loadStore depth _) faultless fun disturbed => disturbed undisturbed
  have notControlHere := traces.reaches.notControl notControl
  obtain ⟨current, kernel, account⟩ := traces.reaches.serves
  have holds : work.kernel = .loadStore current := kernel
  refine ⟨traces.balanced.takesInOrder, account.decodes, account.remains.bounded, account.executes,
    ?_, ?_, Kernel.step_rests unit work, Kernel.step_memory unit notControlHere, ?_⟩
  · rw [holds]
    exact account.remains.isSome_iff
  · rw [holds]
    exact congrArg Kernel.loadStore account.remains.current_eq
  · intro fault faults
    obtain ⟨balanced, breaks⟩ := traces.balanced.breaks notControlHere faults
    exact ⟨Kernel.sameOutside_of_fault notControlHere faults, balanced.takesInOrder,
      Kernel.Serves.breaks ⟨kernel, account⟩ breaks⟩

/-- A word is stored and then loaded, though the address for the load comes later. The address of
the next load is not in memory. -/
def readBack : History :=
  [.apply (.write Bank.opcodes (.ofMicroOp 2 1)), .apply (.write Bank.opcodes (.ofMicroOp 1 2)),
    .apply (.write Bank.firstOperand (.ofNat 1)), .apply (.register Bank.firstOperand .null),
    .apply (.register Bank.firstOperand ⟨3, 0⟩), .apply (.write Bank.firstOperand (.ofNat 7)),
    .apply (.write Bank.secondOperand (.ofNat 9)), .step (.ok true),
    .arrive Bank.firstOperand ⟨3, 0⟩ (.ofNat 1), .step (.ok true)]

theorem readBack_serves :
    ∃ work,
      Evolves 2
        ⟨.loadStore none, .empty 2 .loadStore ⟨4, by decide, by decide⟩, #[.zero, .zero], #[]⟩
        readBack work ∧ readBack.Faultless ∧ readBack.Undisturbed ∧
      readBack.consumed work.buffers Bank.firstOperand = [.ofNat 1, .ofNat 1] ∧
      readBack.consumed work.buffers Bank.secondOperand = [.ofNat 9] ∧
      work.memory = #[.zero, .ofNat 9] ∧ readBack.pushed work.buffers = [.ofNat 9] ∧
      MemoryOp.executeAll? [(.store, .ofNat 1), (.load, .ofNat 1)]
        ⟨#[.zero, .zero], [], [.ofNat 9]⟩ = some ⟨#[.zero, .ofNat 9], [.ofNat 9], []⟩ ∧
      (Kernel.step 2 work).report = .error (.memoryOutOfBounds 2 7 2) ∧
      Kernel.Refused 2 (readBack.progress work) (readBack.progress (Kernel.step 2 work).state)
        (.memoryOutOfBounds 2 7 2) := by
  have fresh := @Evolves.start 2
    ⟨.loadStore none, .empty 2 .loadStore ⟨4, by decide, by decide⟩, #[.zero, .zero], #[]⟩
  have store := fresh.next (@Happens.apply 2 _ (.write Bank.opcodes (.ofMicroOp 2 1)) _ rfl)
  have load := store.next (@Happens.apply 2 _ (.write Bank.opcodes (.ofMicroOp 1 2)) _ rfl)
  have place := load.next (@Happens.apply 2 _ (.write Bank.firstOperand (.ofNat 1)) _ rfl)
  have marked := place.next (@Happens.apply 2 _ (.register Bank.firstOperand .null) _ rfl)
  have expecting := marked.next (@Happens.apply 2 _ (.register Bank.firstOperand ⟨3, 0⟩) _ rfl)
  have outside := expecting.next (@Happens.apply 2 _ (.write Bank.firstOperand (.ofNat 7)) _ rfl)
  have supplied := outside.next (@Happens.apply 2 _ (.write Bank.secondOperand (.ofNat 9)) _ rfl)
  have arrived := (supplied.next .step).next
    (@Happens.arrive 2 _ Bank.firstOperand ⟨3, 0⟩ (.ofNat 1) _ rfl)
  have evolves : Evolves 2 _ readBack _ := arrived.next .step
  have faultless : readBack.Faultless := by
    intro fault member
    simp [readBack] at member
  have undisturbed : readBack.Undisturbed := by
    intro member
    simp [readBack] at member
  obtain ⟨-, -, -, executes, -, -, -, -, faults⟩ :=
    serves_sequentially evolves faultless undisturbed
  exact ⟨_, evolves, faultless, undisturbed, rfl, rfl, rfl, rfl, executes, rfl,
    (faults _ rfl).2.2⟩

end Workspace
end MoveMachine
