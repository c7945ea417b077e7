import MoveMachine.Proofs.Machine.Round
import Mathlib

/-!
# The budget of a machine

Whatever makes progress in a machine uses up something that can be counted: an
instruction in the hands of a manager, a slot, a destination, free room for a
value, or a packet in flight. Each of these is worth as many further steps as it
can still cause, and their sum is the budget (`Machine.budget`). How often a
micro-op is still to be repeated, and how many words a unit still has to emit, is
no part of it: a repetition takes slots, and an emission takes room.

A step spends (`Stepped.Spends`) if what it leaves of the budget, with one more
if it made progress, is within what was there before. All steps of a round do so
except for issuing an instruction, which brings in eight and makes progress
itself.
-/

set_option autoImplicit false

namespace MoveMachine

namespace Stepped

variable {State Other Item Common : Type} {budget : State → Nat} {allowance : Nat} {state : State}

/-- Whether a step without a fault keeps what it leaves of a budget, with one more if it made
progress, within an allowance. -/
def Spends (budget : State → Nat) (allowance : Nat) (stepped : Stepped State) : Prop :=
  ∀ progressed, stepped.report = .ok progressed →
    budget stepped.state + progressed.toNat ≤ allowance

theorem Spends.of_idle (within : budget state ≤ allowance) :
    (idle state).Spends budget allowance := by
  rintro progressed reports
  obtain rfl := Except.ok.inj reports
  exact within

theorem Spends.of_progress (within : budget state + 1 ≤ allowance) :
    (progress state).Spends budget allowance := by
  rintro progressed reports
  obtain rfl := Except.ok.inj reports
  exact within

theorem Spends.of_fault (cause : Fault) : (fault state cause).Spends budget allowance := nofun

theorem Spends.of_attempt {taken : State} {result : Except Fault State}
    (within : ∀ after, result = .ok after → budget after + 1 ≤ allowance) :
    (attempt taken result).Spends budget allowance := by
  cases result with
  | error cause => exact .of_fault cause
  | ok after => exact .of_progress (within after rfl)

/-- Two steps together make progress once at most for each of them. -/
theorem toNat_or_le (first second : Bool) :
    (first || second).toNat ≤ first.toNat + second.toNat := by
  cases first <;> cases second <;> decide

/-- The later of two steps may spend what the first one left. -/
theorem Spends.andThen {first : Stepped State} {next : State → Stepped State}
    (spends : first.Spends budget allowance)
    (spendsNext : (next first.state).Spends budget (budget first.state)) :
    (first.andThen next).Spends budget allowance := by
  obtain ⟨after, report⟩ := first
  cases report with
  | error cause => exact nofun
  | ok progressed =>
    intro either reports
    cases second : (next after).report with
    | error cause => simp [Stepped.andThen, second, Except.map] at reports
    | ok progressedNext =>
      simp only [Stepped.andThen, second, Except.map, Except.ok.injEq] at reports
      subst reports
      have before : budget after + progressed.toNat ≤ allowance := spends progressed rfl
      have later : budget (next after).state + progressedNext.toNat ≤ budget after :=
        spendsNext progressedNext second
      have both := toNat_or_le progressed progressedNext
      show budget (next after).state + (progressed || progressedNext).toNat ≤ allowance
      omega

/-- What the later of two steps keeps is as the first one left it. -/
theorem andThen_keeps {Seen : Type} (see : State → Seen) {next : State → Stepped State}
    (keeps : ∀ state, see (next state).state = see state) (first : Stepped State) :
    see (first.andThen next).state = see first.state := by
  obtain ⟨after, report⟩ := first
  cases report with
  | error cause => rfl
  | ok progressed => exact keeps after

/-- What a step does not touch is in the budget before and after. -/
theorem Spends.beside {stepped : Stepped State} (spends : stepped.Spends budget allowance)
    (untouched : Nat) :
    stepped.Spends (fun state => budget state + untouched) (allowance + untouched) := by
  intro progressed reports
  have within := spends progressed reports
  simp only
  omega

theorem Spends.mono {budgetOther : State → Nat} {allowanceOther : Nat} {stepped : Stepped State}
    (spends : stepped.Spends budget allowance)
    (same : ∀ state, budgetOther state = budget state) (within : allowance ≤ allowanceOther) :
    stepped.Spends budgetOther allowanceOther := by
  intro progressed reports
  rw [same]
  exact (spends progressed reports).trans within

theorem Spends.map {embed : Other → State} {stepped : Stepped Other}
    (spends : stepped.Spends (budget ∘ embed) allowance) :
    (stepped.map embed).Spends budget allowance :=
  spends

/-- The budget of a list of items and of what they have in common. -/
def total (cost : Item → Nat) (common : Common → Nat) (state : List Item × Common) : Nat :=
  (state.1.map cost).sum + common state.2

/-- The step of the first item of a list, and then those of the others. -/
theorem Spends.cons {cost : Item → Nat} {common : Common → Nat} {item kept : Item}
    {later : List Item} {shared sharing : Common} {progressed : Bool}
    {rest : Stepped (List Item × Common)}
    (first : cost kept + common sharing + progressed.toNat ≤ cost item + common shared)
    (spends : rest.Spends (total cost common) (total cost common (later, sharing))) :
    Spends (total cost common) (total cost common (item :: later, shared))
      ⟨(kept :: rest.state.1, rest.state.2), rest.report.map (progressed || ·)⟩ := by
  intro either reports
  cases second : rest.report with
  | error cause => simp [second, Except.map] at reports
  | ok progressedLater =>
    simp only [second, Except.map, Except.ok.injEq] at reports
    subst reports
    have after := spends progressedLater second
    have both := toNat_or_le progressed progressedLater
    simp only [total, List.map_cons, List.sum_cons] at after ⊢
    omega

end Stepped

open Stepped

/-! ## Buffers -/

/-- What an applied instruction leaves to be done on either side of a unit: a slot has to be
retired; a value has to be sent to a destination, which makes room for another one, and to
arrive. -/
def Side.load : Side → Nat
  | .input => 1
  | .output => 3

/-- What an output can still cause: its values that wait for a destination cause nothing. -/
def OutputBuffer.budget (output : OutputBuffer) : Nat :=
  Side.output.load * output.destinations.length + (output.depth.value - output.values.length)

/-- Replacing an item changes a sum by the difference. -/
theorem sum_map_set {Item : Type} {items : List Item} {index : Nat} {old : Item}
    (cost : Item → Nat) (found : items[index]? = some old) (new : Item) :
    ((items.set index new).map cost).sum + cost old = (items.map cost).sum + cost new := by
  induction items generalizing index with
  | nil => simp at found
  | cons item later ih =>
    cases index with
    | zero =>
      obtain rfl : item = old := by simpa using found
      simp only [List.set_cons_zero, List.map_cons, List.sum_cons]
      omega
    | succ index =>
      have rest := @ih index (by simpa using found)
      simp only [List.set_cons_succ, List.map_cons, List.sum_cons]
      omega

namespace Bank

/-- What the buffers of a unit can still cause. -/
def budget (bank : Bank) : Nat :=
  (bank.inputs.map (·.slots.length)).sum + (bank.outputs.map OutputBuffer.budget).sum

variable {bank after : Bank} {index : UInt8}

theorem budget_setInput {old : InputBuffer} (found : bank.input? index = some old)
    (buffer : InputBuffer) :
    (bank.setInput index buffer).budget + old.slots.length =
      bank.budget + buffer.slots.length := by
  have replaced := sum_map_set (fun buffer : InputBuffer => buffer.slots.length) found buffer
  simp only [budget, setInput]
  omega

theorem budget_setOutput {old : OutputBuffer} (found : bank.output? index = some old)
    (buffer : OutputBuffer) :
    (bank.setOutput index buffer).budget + old.budget = bank.budget + buffer.budget := by
  have replaced := sum_map_set OutputBuffer.budget found buffer
  simp only [budget, setOutput]
  omega

/-- Opening a slot adds a slot. -/
theorem budget_openSlot {slot : Slot}
    (opens : bank.alterInput index (·.openSlot slot) = .ok after) :
    after.budget = bank.budget + Side.input.load := by
  cases found : bank.input? index with
  | none => simp [alterInput, found] at opens
  | some buffer =>
    cases full : buffer.isFull with
    | true => simp [alterInput, found, InputBuffer.openSlot, full, Except.map] at opens
    | false =>
      simp only [alterInput, found, InputBuffer.openSlot_of_room slot full, Except.map,
        Except.ok.injEq] at opens
      subst opens
      have replaced := budget_setInput found { buffer with slots := buffer.slots ++ [slot] }
      simp only [List.length_append, List.length_singleton] at replaced
      simp only [Side.load]
      omega

/-- Giving a destination adds one. -/
theorem budget_pushDestination {destination : Address}
    (gives : bank.alterOutput index (·.pushDestination destination) = .ok after) :
    after.budget = bank.budget + Side.output.load := by
  cases found : bank.output? index with
  | none => simp [alterOutput, found] at gives
  | some buffer =>
    cases full : buffer.destinationsFull with
    | true => simp [alterOutput, found, OutputBuffer.pushDestination, full, Except.map] at gives
    | false =>
      simp only [alterOutput, found, OutputBuffer.pushDestination_of_room destination full,
        Except.map, Except.ok.injEq] at gives
      subst gives
      have replaced := budget_setOutput found
        { buffer with destinations := buffer.destinations ++ [destination] }
      simp only [OutputBuffer.budget, Side.load, List.length_append, List.length_singleton]
        at replaced ⊢
      omega

/-- A value that is emitted takes room. -/
theorem budget_emit {value : Word} (emits : bank.emit value = .ok after) :
    after.budget + 1 = bank.budget := by
  cases found : bank.output? result with
  | none => simp [emit, alterOutput, found] at emits
  | some buffer =>
    cases full : buffer.valuesFull with
    | true => simp [emit, alterOutput, found, OutputBuffer.pushValue, full, Except.map] at emits
    | false =>
      simp only [emit, alterOutput, found, OutputBuffer.pushValue_of_room value full, Except.map,
        Except.ok.injEq] at emits
      subst emits
      have replaced := budget_setOutput found { buffer with values := buffer.values ++ [value] }
      have room : buffer.values.length < buffer.depth.value := by
        simpa [OutputBuffer.valuesFull] using full
      simp only [OutputBuffer.budget, List.length_append, List.length_singleton] at replaced
      omega

/-- A value that is taken retires its slot. -/
theorem budget_take? {value : Word} (taken : bank.take? index = some (value, after)) :
    after.budget + 1 = bank.budget := by
  cases found : bank.input? index with
  | none => simp [take?, found] at taken
  | some buffer =>
    obtain ⟨depth, slots⟩ := buffer
    cases slots with
    | nil => simp [take?, found, InputBuffer.pop?, InputBuffer.peek?] at taken
    | cons slot younger =>
      cases holds : slot.value? with
      | none => simp [take?, found, InputBuffer.pop?, InputBuffer.peek?, holds] at taken
      | some word =>
        simp only [take?, found, InputBuffer.pop?, InputBuffer.peek?, List.head?_cons, holds,
          Option.bind_some, Option.map_some, List.tail_cons, Option.bind_eq_bind, Option.pure_def,
          Option.some.injEq, Prod.mk.injEq] at taken
        obtain ⟨-, rfl⟩ := taken
        have replaced := budget_setInput found ⟨depth, younger⟩
        simp only [List.length_cons] at replaced
        omega

theorem budget_takeOperands? {first second : Word}
    (taken : bank.takeOperands? = some (first, second, after)) :
    after.budget + 2 = bank.budget := by
  obtain ⟨⟨word, middle⟩, takesFirst, rest⟩ := Option.bind_eq_some_iff.mp taken
  obtain ⟨⟨word', last⟩, takesSecond, result⟩ := Option.bind_eq_some_iff.mp rest
  simp only [Option.pure_def, Option.some.injEq, Prod.mk.injEq] at result
  obtain ⟨-, -, rfl⟩ := result
  have before := budget_take? takesFirst
  have later := budget_take? takesSecond
  omega

/-- If a change makes no input longer and at least one shorter, slots are used up. -/
theorem budget_shorten {change : InputBuffer → InputBuffer}
    (fewer : ∀ buffer, (change buffer).slots.length ≤ buffer.slots.length)
    {input : InputBuffer} (member : input ∈ bank.inputs)
    (shorter : (change input).slots.length < input.slots.length) :
    ({ bank with inputs := bank.inputs.map change } : Bank).budget + 1 ≤ bank.budget := by
  have less : (bank.inputs.map fun buffer => (change buffer).slots.length).sum <
      (bank.inputs.map fun buffer => buffer.slots.length).sum :=
    List.sum_lt_sum _ _ (fun buffer _ => fewer buffer) ⟨input, member, shorter⟩
  simp only [budget, List.map_map, Function.comp_def]
  omega

/-- Dropping items from the front of a list that begins with one of them makes it shorter. -/
theorem length_dropWhile_lt {Item : Type} {items : List Item} {drop : Item → Bool}
    (front : items.head?.any drop = true) : (items.dropWhile drop).length < items.length := by
  cases items with
  | nil => cases front
  | cons item later =>
    have drops : drop item = true := front
    rw [List.dropWhile_cons_of_pos drops, List.length_cons]
    exact Nat.lt_succ_of_le (List.dropWhile_sublist drop).length_le

end Bank

/-! ## Kernels -/

namespace Kernel

variable {unit : UInt8} {work : Workspace}

/-- What a kernel can still cause is in the buffers that it works on. -/
abbrev Thrifty (work : Workspace) (stepped : Stepped Workspace) : Prop :=
  stepped.Spends (·.buffers.budget) work.buffers.budget

theorem dropMarkers_spends : Thrifty work (dropMarkers work) := by
  rw [dropMarkers]
  split
  · rename_i some
    obtain ⟨input, member, front⟩ := List.any_eq_true.mp some
    exact .of_progress (Bank.budget_shorten
      (fun buffer => (List.dropWhile_sublist _).length_le) member
      (Bank.length_dropWhile_lt front))
  · exact .of_idle (Nat.le_refl _)

theorem collect_spends : Thrifty work (collect work) := by
  rw [collect]
  split
  · rename_i some
    obtain ⟨input, member, hasValue⟩ := List.any_eq_true.mp some
    have front : input.slots.head?.any (fun slot => slot.value?.isSome) = true := by
      rw [InputBuffer.hasValue, InputBuffer.peek?] at hasValue
      cases head : input.slots.head? with
      | none =>
        rw [head] at hasValue
        cases hasValue
      | some slot =>
        rw [head] at hasValue
        exact hasValue
    refine .of_progress ?_
    rw [List.map_map]
    exact Bank.budget_shorten (fun buffer => (List.dropWhile_sublist _).length_le) member
      (Bank.length_dropWhile_lt front)
  · exact .of_idle (Nat.le_refl _)

theorem fetch_spends : Thrifty work (fetch unit work) := by
  rw [fetch]
  split
  all_goals try exact .of_idle (Nat.le_refl _)
  all_goals
    split
    · exact .of_idle (Nat.le_refl _)
    · rename_i taken
      split
      · exact .of_fault _
      · exact .of_progress (Bank.budget_take? taken).le

theorem writeWord_spends {address : Nat} {value : Word} {next : Kernel} {allowance : Nat}
    (within : work.buffers.budget + 1 ≤ allowance) :
    (writeWord unit address value next work).Spends (·.buffers.budget) allowance := by
  by_cases inside : address < work.memory.size
  · rw [writeWord_inside unit value next inside]
    exact .of_progress within
  · rw [writeWord_outside unit value next inside]
    exact .of_fault _

/-- Giving a value to the output spends at least as much as taking others for it. -/
theorem emit_spends {taken : Workspace} {buffers : Bank} {value : Word}
    (become : Bank → Workspace) (keeps : ∀ after, (become after).buffers = after)
    (within : buffers.budget ≤ work.buffers.budget) :
    Thrifty work (attempt taken ((buffers.emit value).map become)) := by
  refine .of_attempt fun after result => ?_
  cases emits : buffers.emit value with
  | error cause => simp [emits, Except.map] at result
  | ok given =>
    simp only [emits, Except.map, Except.ok.injEq] at result
    subst result
    have room := Bank.budget_emit emits
    rw [keeps]
    omega


theorem passOn_spends : Thrifty work (passOn work) := by
  rw [passOn]
  split
  · split
    · exact .of_idle (Nat.le_refl _)
    · rename_i taken
      have before := Bank.budget_take? taken
      exact emit_spends _ (fun _ => rfl) (by omega)
  · exact .of_idle (Nat.le_refl _)

theorem writeNext_spends {offset written : Nat} :
    Thrifty work (writeNext unit offset written work) := by
  rw [writeNext]
  split
  · exact .of_idle (Nat.le_refl _)
  · rename_i taken
    exact writeWord_spends (Bank.budget_take? taken).le

theorem emitNext_spends {offset count emitted : Nat} :
    Thrifty work (emitNext unit offset count emitted work) := by
  rw [emitNext]
  split
  · split
    · exact .of_fault _
    · exact emit_spends _ (fun _ => rfl) (Nat.le_refl _)
  · exact .of_idle (Nat.le_refl _)

theorem load_spends {remaining : Option (Repeated MemoryOp)} :
    Thrifty work (load unit remaining work) := by
  rw [load]
  split
  · split
    · exact .of_idle (Nat.le_refl _)
    · rename_i taken
      have before := Bank.budget_take? taken
      split
      · exact .of_fault _
      · exact emit_spends _ (fun _ => rfl) (by omega)
  · exact .of_idle (Nat.le_refl _)

theorem store_spends {remaining : Option (Repeated MemoryOp)} :
    Thrifty work (store unit remaining work) := by
  rw [store]
  split
  · exact .of_idle (Nat.le_refl _)
  · rename_i taken
    have before := Bank.budget_takeOperands? taken
    refine writeWord_spends ?_
    simp only
    omega

theorem combine_spends {op : ArithmeticOp} {remaining : Option (Repeated ArithmeticOp)} :
    Thrifty work (combine unit op remaining work) := by
  rw [combine]
  split
  · split
    · exact .of_idle (Nat.le_refl _)
    · rename_i first second buffers taken
      have before := Bank.budget_takeOperands? taken
      cases op.compute unit first second with
      | error cause => exact .of_fault cause
      | ok value =>
        exact emit_spends (fun after =>
          { work with buffers := after, kernel := .arithmetic remaining }) (fun _ => rfl) (by omega)
  · exact .of_idle (Nat.le_refl _)

/-- Handling an element of work spends, whatever the kernel's counters are. -/
theorem perform_spends : Thrifty work (perform unit work) := by
  rw [perform]
  split
  · exact collect_spends
  · exact passOn_spends
  · exact writeNext_spends
  · exact emitNext_spends
  · exact .of_idle (Nat.le_refl _)
  · split
    · exact load_spends
    · exact store_spends
  · exact .of_idle (Nat.le_refl _)
  · exact combine_spends

theorem step_spends (unit : UInt8) (work : Workspace) : Thrifty work (step unit work) := by
  rw [step]
  exact (dropMarkers_spends.andThen fetch_spends).andThen perform_spends

end Kernel

/-! ## Managers -/

namespace Manager

/-- What a manager can still cause: it takes an instruction, applies it, and what the applied
instruction then leaves to be done. -/
def budget (manager : Manager) : Nat :=
  (manager.side.load + 2) * manager.inbox.length +
    (manager.side.load + 1) * manager.pending.toList.length

/-- What an instruction does to the buffers adds its load. -/
theorem budget_apply {manager : Manager} {instruction : Instruction} {effect : Effect}
    {buffers after : Bank} (means : Effect.of? manager.side manager.unit instruction = some effect)
    (applied : buffers.apply effect = .ok after) :
    after.budget = buffers.budget + manager.side.load := by
  cases side : manager.side with
  | input =>
    rw [side] at means
    obtain ⟨input, -, -, isEffect⟩ := Effect.of?_input means
    rw [(isEffect buffers).1] at applied
    exact Bank.budget_openSlot applied
  | output =>
    rw [side] at means
    obtain ⟨output, -, -, isEffect⟩ := Effect.of?_output means
    rw [(isEffect buffers).1] at applied
    exact Bank.budget_pushDestination applied

theorem step_spends (manager : Manager) (buffers : Bank) :
    (manager.step buffers).Spends (fun state => state.1.budget + state.2.budget)
      (manager.budget + buffers.budget) := by
  have outcome := manager.step_outcome buffers
  generalize manager.step buffers = stepped at outcome
  cases outcome with
  | rests | waits => exact .of_idle (Nat.le_refl _)
  | fails => exact .of_fault _
  | fetches free waiting =>
    refine .of_progress ?_
    simp only [budget, free, waiting, Option.toList_none, Option.toList_some, List.length_nil,
      List.length_cons, Nat.mul_succ]
    omega
  | drops holds =>
    refine .of_progress ?_
    simp only [budget, holds, Option.toList_none, Option.toList_some, List.length_nil,
      List.length_singleton]
    omega
  | applies holds means _ applied =>
    have added := budget_apply means applied
    refine .of_progress ?_
    simp only [budget, holds, Option.toList_none, Option.toList_some, List.length_nil,
      List.length_singleton]
    omega

end Manager
end MoveMachine
