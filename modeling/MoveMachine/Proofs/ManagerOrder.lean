import MoveMachine.Proofs.Manager

/-!
# Managers carry out instructions in order

A manager asks whether there is room for an effect, lets go of the instruction, and then
carries the effect out. Asking and carrying out are two functions, but they agree: if the
buffer exists, there is room exactly if the effect can be carried out, and if it does not
exist, it is carried out at once, which fails and changes nothing (`Bank.apply_spec`).

So an instruction that a manager lets go of was carried out, unless it is dropped because
it does not concern this side of the unit, or lost because its buffer does not exist
(`Manager.Settles`, `Manager.settles_of_released?`). Whatever happens to the buffers
between the steps (`Manager.Works`), the instructions let go of are followed by the one
that is held and by those in the inbox, and all together are the instructions accepted, in
order (`Manager.applies_in_order`).
-/

set_option autoImplicit false

namespace MoveMachine

/-! ## Effects and the room for them -/

namespace Effect

/-- The index of the buffer that an effect is for. -/
def index : Effect → UInt8
  | .register buffer _ | .write buffer _ | .direct buffer _ => buffer

/-- The side of the buffer that an effect is for. -/
def side : Effect → Side
  | .register .. | .write .. => .input
  | .direct .. => .output

end Effect

namespace Bank

variable {unit : UInt8} {type : UnitType} {depth : Depth} {bank : Bank}

theorem clear_empty (unit : UInt8) (type : UnitType) (depth : Depth) :
    (empty unit type depth).clear = empty unit type depth := by
  simp only [clear, empty, List.map_map]
  rfl

/-- How many entries the stream that an effect adds to has, and for how many there is room, if its
buffer exists. -/
def load? (bank : Bank) : Effect → Option (Nat × Nat)
  | .register buffer _ | .write buffer _ =>
    (bank.input? buffer).map fun input => (input.slots.length, input.depth.value)
  | .direct buffer _ =>
    (bank.output? buffer).map fun output => (output.destinations.length, output.depth.value)

/-- What asking for room and carrying out an effect come to. -/
inductive Takes (bank : Bank) (effect : Effect) : Bool → Except Fault Bank → Prop where
  | missing (absent : bank.load? effect = none) :
      Takes bank effect true (.error (.unknownBuffer (bank.address effect.index)))
  | full {load limit : Nat} (found : bank.load? effect = some (load, limit))
      (noRoom : limit ≤ load) (stream : Stream) :
      Takes bank effect false (.error (.overflow stream limit))
  | fits {load limit : Nat} {after : Bank} (found : bank.load? effect = some (load, limit))
      (room : load < limit) (same : after.clear = bank.clear) : Takes bank effect true (.ok after)

theorem openSlot_takes {effect : Effect} {index : UInt8} (slot : Slot)
    (load : bank.load? effect =
      (bank.input? index).map fun input => (input.slots.length, input.depth.value))
    (isIndex : effect.index = index) :
    Takes bank effect ((bank.input? index).all (!·.isFull))
      (bank.alterInput index (·.openSlot slot)) := by
  subst isIndex
  cases found : bank.input? effect.index with
  | none =>
    rw [found] at load
    simp only [alterInput, found]
    exact .missing load
  | some buffer =>
    rw [found] at load
    simp only [alterInput, found, InputBuffer.openSlot]
    by_cases full : buffer.depth.value ≤ buffer.slots.length
    · have isFull : buffer.isFull = true := decide_eq_true full
      simp only [isFull, if_true, Option.all_some]
      exact .full load full .sources
    · have notFull : buffer.isFull = false := decide_eq_false full
      simp only [notFull, Bool.false_eq_true, if_false, Option.all_some]
      exact .fits load (Nat.lt_of_not_le full) (clear_setInput found rfl)

/-- There is room for an effect exactly if it can be carried out, unless its buffer does not
exist. -/
theorem apply_spec (bank : Bank) (effect : Effect) :
    Takes bank effect (bank.canApply effect) (bank.apply effect) := by
  cases effect with
  | register index source => exact openSlot_takes _ rfl rfl
  | write index value => exact openSlot_takes _ rfl rfl
  | direct index destination =>
    cases found : bank.output? index with
    | none =>
      have load : bank.load? (.direct index destination) = none := by simp [load?, found]
      simp only [canApply, apply, alterOutput, found]
      exact .missing load
    | some buffer =>
      have load : bank.load? (.direct index destination) =
          some (buffer.destinations.length, buffer.depth.value) := by simp [load?, found]
      simp only [canApply, apply, alterOutput, found, OutputBuffer.pushDestination]
      by_cases full : buffer.depth.value ≤ buffer.destinations.length
      · have isFull : buffer.destinationsFull = true := decide_eq_true full
        simp only [isFull, if_true, Option.all_some]
        exact .full load full .destinations
      · have notFull : buffer.destinationsFull = false := decide_eq_false full
        simp only [notFull, Bool.false_eq_true, if_false, Option.all_some]
        exact .fits load (Nat.lt_of_not_le full) (clear_setOutput found rfl)

theorem of_apply_ok {effect : Effect} {after : Bank} (applies : bank.apply effect = .ok after) :
    (bank.load? effect).isSome = true ∧ after.clear = bank.clear := by
  have spec := bank.apply_spec effect
  rw [applies] at spec
  generalize bank.canApply effect = room at spec
  cases spec with
  | fits found room same => exact ⟨by rw [found]; rfl, same⟩

/-- Where there is room, only a missing buffer is a fault. -/
theorem of_apply_error {effect : Effect} {fault : Fault} (room : bank.canApply effect = true)
    (fails : bank.apply effect = .error fault) :
    bank.load? effect = none ∧ fault = .unknownBuffer (bank.address effect.index) := by
  have spec := bank.apply_spec effect
  rw [room, fails] at spec
  cases spec with
  | missing absent => exact ⟨absent, rfl⟩

theorem canApply_eq_false_iff {effect : Effect} :
    bank.canApply effect = false ↔
      ∃ load limit, bank.load? effect = some (load, limit) ∧ limit ≤ load := by
  have spec := bank.apply_spec effect
  generalize bank.canApply effect = answer at spec ⊢
  generalize bank.apply effect = result at spec
  cases spec with
  | missing absent => simp [absent]
  | full found noRoom stream => exact ⟨fun _ => ⟨_, _, found, noRoom⟩, fun _ => rfl⟩
  | fits found room same => simp [found, Nat.not_le_of_lt room]

/-- Asking for room tells whether an effect can be carried out, and lets a missing buffer pass. -/
theorem canApply_agrees (bank : Bank) (effect : Effect) :
    (bank.load? effect = none → bank.canApply effect = true ∧
      bank.apply effect = .error (.unknownBuffer (bank.address effect.index))) ∧
    ((bank.load? effect).isSome = true →
      (bank.canApply effect = true ↔ ∃ after, bank.apply effect = .ok after)) := by
  have spec := bank.apply_spec effect
  generalize bank.canApply effect = answer at spec ⊢
  generalize bank.apply effect = result at spec ⊢
  cases spec with
  | missing absent => simp [absent]
  | full found | fits found => simp [found]

theorem lt_of_canApply {effect : Effect} {load limit : Nat} (room : bank.canApply effect = true)
    (found : bank.load? effect = some (load, limit)) : load < limit := by
  by_contra full
  rw [canApply_eq_false_iff.mpr ⟨load, limit, found, Nat.le_of_not_lt full⟩] at room
  cases room

/-- Which buffers there are depends on the kind of unit only. -/
theorem load?_isSome (shape : bank.clear = .empty unit type depth) (effect : Effect) :
    (bank.load? effect).isSome = true ↔
      effect.index.toNat < (type.buffers effect.side).length := by
  have inputs : bank.inputs.length = (type.buffers .input).length := by
    have lengths := congrArg (·.inputs.length) shape
    simpa [clear, empty] using lengths
  have outputs : bank.outputs.length = (type.buffers .output).length := by
    have lengths := congrArg (·.outputs.length) shape
    simpa [clear, empty] using lengths
  cases effect with
  | register | write =>
    rw [load?, Option.isSome_map, input?, isSome_getElem?, inputs]
    rfl
  | direct =>
    rw [load?, Option.isSome_map, output?, isSome_getElem?, outputs]
    rfl

end Bank

namespace Manager

/-! ## Histories -/

variable {side : Side} {unit : UInt8} {type : UnitType} {depth : Depth} {capacity : Nat}
  {accepted : List Instruction} {moments : List (Manager × Bank)} {manager : Manager} {bank : Bank}

/-- A manager and the buffers that it works on, with the instructions accepted so far and the
moments at which the manager made its steps. -/
inductive Works (side : Side) (unit : UInt8) (type : UnitType) (depth : Depth) (capacity : Nat) :
    (accepted : List Instruction) → (moments : List (Manager × Bank)) → Manager → Bank → Prop where
  | start : Works side unit type depth capacity [] [] (.empty side unit capacity)
      (.empty unit type depth)
  | accept {accepted : List Instruction} {moments : List (Manager × Bank)}
      {manager after : Manager} {bank : Bank} {instruction : Instruction}
      (earlier : Works side unit type depth capacity accepted moments manager bank)
      (receives : manager.receive instruction = .ok after) :
      Works side unit type depth capacity (accepted ++ [instruction]) moments after bank
  | step {accepted : List Instruction} {moments : List (Manager × Bank)} {manager : Manager}
      {bank : Bank} (earlier : Works side unit type depth capacity accepted moments manager bank) :
      Works side unit type depth capacity accepted (moments ++ [(manager, bank)])
        (manager.step bank).state.1 (manager.step bank).state.2
  /-- Anything else that happens to the contents of the buffers. -/
  | change {accepted : List Instruction} {moments : List (Manager × Bank)} {manager : Manager}
      {bank : Bank} (earlier : Works side unit type depth capacity accepted moments manager bank)
      {other : Bank} (same : other.clear = bank.clear) :
      Works side unit type depth capacity accepted moments manager other

/-- The instruction that a manager lets go of in a step, if it does. -/
def released? (moment : Manager × Bank) : Option Instruction :=
  if (moment.1.step moment.2).state.1.pending.isSome then none else moment.1.pending

/-- What becomes of an instruction that a manager lets go of: it is carried out if its buffer
exists, dropped if it means nothing here, and lost otherwise. -/
inductive Settles (side : Side) (unit : UInt8) (type : UnitType) (instruction : Instruction)
    (bank : Bank) : Bank → Except Fault Bool → Prop where
  | applied {effect : Effect} {after : Bank}
      (means : Effect.of? side unit instruction = some effect)
      (present : effect.index.toNat < (type.buffers effect.side).length)
      (applies : bank.apply effect = .ok after) :
      Settles side unit type instruction bank after (.ok true)
  | dropped (foreign : Effect.of? side unit instruction = none) :
      Settles side unit type instruction bank bank (.ok true)
  | lost {effect : Effect} (means : Effect.of? side unit instruction = some effect)
      (missing : (type.buffers effect.side).length ≤ effect.index.toNat) :
      Settles side unit type instruction bank bank (.error (.unknownBuffer ⟨unit, effect.index⟩))

/-- A manager of a side of a unit, with the buffers of this unit. -/
structure Fits (side : Side) (unit : UInt8) (type : UnitType) (depth : Depth)
    (moment : Manager × Bank) : Prop where
  isSide : moment.1.side = side
  isUnit : moment.1.unit = unit
  shape : moment.2.clear = .empty unit type depth

/-! ## Single steps -/

section Steps

variable {moment : Manager × Bank}

/-- As long as a manager does not let go of an instruction, it leaves the buffers alone. -/
theorem keeps_of_released? (holds : released? moment = none) :
    (moment.1.step moment.2).state.2 = moment.2 ∧
      ∃ progressed, (moment.1.step moment.2).report = .ok progressed := by
  obtain ⟨manager, bank⟩ := moment
  rw [released?] at holds
  have outcome := step_outcome manager bank
  simp only at holds ⊢
  generalize manager.step bank = stepped at holds outcome ⊢
  cases outcome with
  | rests | fetches | waits | drops => exact ⟨rfl, _, rfl⟩
  | applies isPending means room applied => simp [isPending] at holds
  | fails isPending means room applied => simp [isPending] at holds

/-- A step lets go of the instruction that is held, or takes the next one, or neither. -/
theorem released?_append (moment : Manager × Bank) :
    let after := (moment.1.step moment.2).state.1
    (released? moment).toList ++ (after.pending.toList ++ after.inbox) =
        moment.1.pending.toList ++ moment.1.inbox ∧
      after.inbox.length ≤ moment.1.inbox.length ∧ after.capacity = moment.1.capacity := by
  obtain ⟨manager, bank⟩ := moment
  rw [released?]
  have outcome := step_outcome manager bank
  simp only
  generalize manager.step bank = stepped at outcome ⊢
  cases outcome with
  | rests free empty => simp [free]
  | fetches free waiting => simp [free, waiting]
  | drops holds | waits holds | applies holds | fails holds => simp [holds]

/-- A manager does not look at the next instruction while it holds one. -/
theorem inbox_of_pending (holds : moment.1.pending.isSome = true) :
    (moment.1.step moment.2).state.1.inbox = moment.1.inbox := by
  obtain ⟨manager, bank⟩ := moment
  have outcome := step_outcome manager bank
  simp only at holds ⊢
  generalize manager.step bank = stepped at outcome ⊢
  cases outcome with
  | rests | drops | waits | applies | fails => rfl
  | fetches free waiting =>
    rw [free] at holds
    cases holds

/-- A manager makes no progress exactly if it has no instruction, or if there is no room for the
effect of the one that it holds. Then it changes nothing. -/
theorem step_eq_idle_iff (manager : Manager) (bank : Bank) :
    ((manager.step bank).report = .ok false ↔
      manager.pending = none ∧ manager.inbox = [] ∨
      ∃ instruction effect load limit, manager.pending = some instruction ∧
        Effect.of? manager.side manager.unit instruction = some effect ∧
        bank.load? effect = some (load, limit) ∧ limit ≤ load) ∧
    ((manager.step bank).report = .ok false → (manager.step bank).state = (manager, bank)) := by
  have outcome := step_outcome manager bank
  generalize manager.step bank = stepped at outcome ⊢
  cases outcome with
  | rests free empty => simp [free, empty]
  | fetches free waiting => simp [free, waiting]
  | drops holds foreign => simp [holds, foreign]
  | waits holds means full =>
    obtain ⟨load, limit, found, noRoom⟩ := Bank.canApply_eq_false_iff.mp full
    simp [holds, means, found, noRoom]
  | @applies instruction effect after holds means room applied
  | @fails instruction effect fault holds means room applied =>
    refine ⟨⟨nofun, ?_⟩, nofun⟩
    rintro (⟨free, -⟩ | ⟨same, sameEffect, load, limit, isPending, isMeant, found, full⟩)
    · rw [holds] at free
      cases free
    · obtain rfl := Option.some.inj (holds.symm.trans isPending)
      obtain rfl := Option.some.inj (means.symm.trans isMeant)
      exact absurd full (Nat.not_le_of_lt (Bank.lt_of_canApply room found))

variable (fits : Fits side unit type depth moment)
include fits

/-- A manager lets go of an instruction only when it is done with it. -/
theorem settles_of_released? {instruction : Instruction}
    (released : released? moment = some instruction) :
    Settles side unit type instruction moment.2 (moment.1.step moment.2).state.2
      (moment.1.step moment.2).report := by
  obtain ⟨manager, bank⟩ := moment
  obtain ⟨rfl, rfl, shape⟩ := fits
  rw [released?] at released
  have outcome := step_outcome manager bank
  simp only at released ⊢
  generalize manager.step bank = stepped at released outcome ⊢
  cases outcome with
  | rests free empty => simp [free] at released
  | fetches free waiting => simp at released
  | waits holds means full => simp [holds] at released
  | drops holds foreign =>
    obtain rfl : instruction = _ := by simpa [holds] using released.symm
    exact .dropped foreign
  | applies holds means room applied =>
    obtain rfl : instruction = _ := by simpa [holds] using released.symm
    exact .applied means ((Bank.load?_isSome shape _).mp (Bank.of_apply_ok applied).1) applied
  | fails holds means room applied =>
    obtain rfl : instruction = _ := by simpa [holds] using released.symm
    obtain ⟨absent, rfl⟩ := Bank.of_apply_error room applied
    have isUnit : bank.unit = manager.unit := congrArg (·.unit) shape
    rw [Bank.address, isUnit]
    refine .lost means (Nat.le_of_not_lt fun present => ?_)
    rw [← Bank.load?_isSome shape, absent] at present
    cases present

/-- A manager never puts anything where there is no room. -/
theorem step_ne_overflow (stream : Stream) (limit : Nat) :
    (moment.1.step moment.2).report ≠ .error (.overflow stream limit) := by
  intro overflows
  cases isReleased : released? moment with
  | none =>
    obtain ⟨-, progressed, succeeds⟩ := keeps_of_released? isReleased
    rw [succeeds] at overflows
    cases overflows
  | some instruction =>
    have settles := settles_of_released? fits isReleased
    rw [overflows] at settles
    generalize (moment.1.step moment.2).state.2 = after at settles
    cases settles

theorem Fits.step : Fits side unit type depth (moment.1.step moment.2).state := by
  obtain ⟨manager, bank⟩ := moment
  obtain ⟨rfl, rfl, shape⟩ := fits
  have outcome := step_outcome manager bank
  simp only
  generalize manager.step bank = stepped at outcome ⊢
  cases outcome with
  | rests | fetches | drops | waits | fails => exact ⟨rfl, rfl, shape⟩
  | applies holds means room applied => exact ⟨rfl, rfl, (Bank.of_apply_ok applied).2.trans shape⟩

end Steps

/-! ## Whole histories -/

/-- What a history says of a manager and its buffers. -/
structure Account (side : Side) (unit : UInt8) (type : UnitType) (depth : Depth) (capacity : Nat)
    (accepted : List Instruction) (moments : List (Manager × Bank)) (manager : Manager)
    (bank : Bank) : Prop where
  fits : Fits side unit type depth (manager, bank)
  past : ∀ moment ∈ moments, Fits side unit type depth moment
  room : manager.capacity = max capacity 1
  bounded : manager.inbox.length ≤ max capacity 1
  queue : accepted = moments.filterMap released? ++ (manager.pending.toList ++ manager.inbox)

/-- An instruction is refused exactly if the inbox is full. -/
theorem receive_eq_error_iff {instruction : Instruction} {fault : Fault} :
    manager.receive instruction = .error fault ↔
      manager.capacity ≤ manager.inbox.length ∧
        fault = .overflow .instructions manager.capacity := by
  rw [receive]
  by_cases room : manager.inbox.length < manager.capacity
  · simp [canAccept, room, Nat.not_le.mpr room]
  · simp [canAccept, room, Nat.le_of_not_lt room, eq_comm]

theorem Account.accept {instruction : Instruction} {after : Manager}
    (account : Account side unit type depth capacity accepted moments manager bank)
    (receives : manager.receive instruction = .ok after) :
    Account side unit type depth capacity (accepted ++ [instruction]) moments after bank := by
  rw [receive] at receives
  split at receives
  · rename_i room
    obtain rfl := Except.ok.inj receives
    have fewer : manager.inbox.length < manager.capacity := of_decide_eq_true room
    refine ⟨⟨account.fits.isSide, account.fits.isUnit, account.fits.shape⟩, account.past,
      account.room, ?_, ?_⟩
    · rw [List.length_append, ← account.room]
      exact fewer
    · rw [account.queue]
      simp
  · cases receives

theorem Account.step
    (account : Account side unit type depth capacity accepted moments manager bank) :
    Account side unit type depth capacity accepted (moments ++ [(manager, bank)])
      (manager.step bank).state.1 (manager.step bank).state.2 := by
  obtain ⟨queue, shrinks, room⟩ := released?_append (manager, bank)
  refine ⟨account.fits.step, ?_, room.trans account.room,
    Nat.le_trans shrinks account.bounded, ?_⟩
  · intro moment member
    rcases List.mem_append.mp member with early | late
    · exact account.past moment early
    · obtain rfl := List.mem_singleton.mp late
      exact account.fits
  · rw [account.queue, ← queue, List.filterMap_append, List.append_assoc]
    cases released : released? (manager, bank) <;> simp [released]

theorem Works.account
    (works : Works side unit type depth capacity accepted moments manager bank) :
    Account side unit type depth capacity accepted moments manager bank := by
  induction works with
  | start =>
    exact ⟨⟨rfl, rfl, Bank.clear_empty unit type depth⟩, nofun, rfl, Nat.zero_le _, rfl⟩
  | accept earlier receives ih => exact ih.accept receives
  | step earlier ih => exact ih.step
  | change earlier same ih =>
    exact ⟨⟨ih.fits.isSide, ih.fits.isUnit, same.trans ih.fits.shape⟩, ih.past, ih.room, ih.bounded,
      ih.queue⟩

/-- A manager carries out the instructions that it accepts once each, in order, and only when there
is room, whatever happens to the buffers in the meantime.

It refuses an instruction exactly if its inbox is full. The instructions accepted are those that it
let go of in its steps, the one that it holds and those in its inbox, in this order. What it lets go
of is carried out, dropped or lost (`Settles`), and in all other steps the buffers stay as they are.
No step puts anything where there is no room. A step makes no progress exactly if there is no
instruction or no room for the effect of the one that is held; then nothing changes, and as long as
one is held, the next one is not looked at. Asking for room always tells whether an effect can be
carried out. -/
theorem applies_in_order
    (works : Works side unit type depth capacity accepted moments manager bank) :
    accepted = moments.filterMap released? ++ (manager.pending.toList ++ manager.inbox) ∧
    (∀ instruction fault, manager.receive instruction = .error fault ↔
      manager.inbox.length = max capacity 1 ∧
        fault = .overflow .instructions (max capacity 1)) ∧
    (∀ moment ∈ moments,
      let stepped := moment.1.step moment.2
      (∀ instruction, released? moment = some instruction →
        Settles side unit type instruction moment.2 stepped.state.2 stepped.report) ∧
      (released? moment = none → stepped.state.2 = moment.2) ∧
      (∀ stream limit, stepped.report ≠ .error (.overflow stream limit)) ∧
      (stepped.report = .ok false ↔ moment.1.pending = none ∧ moment.1.inbox = [] ∨
        ∃ instruction effect load limit, moment.1.pending = some instruction ∧
          Effect.of? side unit instruction = some effect ∧
          moment.2.load? effect = some (load, limit) ∧ limit ≤ load) ∧
      (stepped.report = .ok false → stepped.state = moment) ∧
      (moment.1.pending.isSome = true → stepped.state.1.inbox = moment.1.inbox)) ∧
    ∀ (bank : Bank) (effect : Effect),
      (bank.load? effect = none → bank.canApply effect = true ∧
        bank.apply effect = .error (.unknownBuffer (bank.address effect.index))) ∧
      ((bank.load? effect).isSome = true →
        (bank.canApply effect = true ↔ ∃ after, bank.apply effect = .ok after)) := by
  have account := works.account
  refine ⟨account.queue, fun instruction fault => ?_, fun moment member => ?_, Bank.canApply_agrees⟩
  · rw [receive_eq_error_iff, account.room]
    have full : max capacity 1 ≤ manager.inbox.length ↔ manager.inbox.length = max capacity 1 :=
      ⟨fun reached => Nat.le_antisymm account.bounded reached, Nat.le_of_eq ∘ Eq.symm⟩
    rw [full]
  · have fits := account.past moment member
    obtain ⟨idle, same⟩ := step_eq_idle_iff moment.1 moment.2
    rw [fits.isSide, fits.isUnit] at idle
    exact ⟨fun _ => settles_of_released? fits, fun holds => (keeps_of_released? holds).1,
      step_ne_overflow fits, idle, same, inbox_of_pending⟩

/-- An instruction that is carried out, one for an input that does not exist, and one that has to
wait, since the input of the first one is full. -/
def threeReceived : List Instruction :=
  [.move ⟨1, 0⟩ ⟨2, 0⟩, .move ⟨1, 0⟩ ⟨2, 7⟩, .immediate (.ofNat 9) ⟨2, 0⟩]

theorem threeReceived_applied :
    ∃ moments manager bank,
      Works .input 2 .arithmetic ⟨1, by decide, by decide⟩ 0 threeReceived moments manager bank ∧
      moments.filterMap released? = [.move ⟨1, 0⟩ ⟨2, 0⟩, .move ⟨1, 0⟩ ⟨2, 7⟩] ∧
      bank.slotsAt 0 = [.awaiting ⟨1, 0⟩] ∧
      moments.map (fun moment => (moment.1.step moment.2).report) =
        [.ok true, .ok true, .ok true, .error (.unknownBuffer ⟨2, 7⟩), .ok true, .ok false] ∧
      threeReceived = moments.filterMap released? ++ (manager.pending.toList ++ manager.inbox) := by
  have fresh := @Works.start .input 2 .arithmetic ⟨1, by decide, by decide⟩ 0
  have first := (@Works.accept _ _ _ _ _ _ _ _ _ _ (.move ⟨1, 0⟩ ⟨2, 0⟩) fresh rfl).step
  have second :=
    (@Works.accept _ _ _ _ _ _ _ _ _ _ (.move ⟨1, 0⟩ ⟨2, 7⟩) first rfl).step.step.step
  have third :=
    (@Works.accept _ _ _ _ _ _ _ _ _ _ (.immediate (.ofNat 9) ⟨2, 0⟩) second rfl).step.step
  exact ⟨_, _, _, third, by decide, by decide, by decide, (applies_in_order third).1⟩

end Manager

end MoveMachine
