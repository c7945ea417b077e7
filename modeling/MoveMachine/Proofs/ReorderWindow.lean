import Mathlib.Data.List.Induction
import MoveMachine.Proofs.Contents

/-!
# Input buffers as reorder windows

Values may reach an input buffer in any order, but they leave it in the order in which
the slots were opened. What a buffer was asked and what it answered is a transcript,
and everything about the buffer can be said from the transcript alone: which slots were
opened, which value each of them got (`InputBuffer.Transcript.window`), how many of them
are retired, and what the buffer answers next (`InputBuffer.Transcript.answer`).

The values from one sender fill the slots opened for it in order. Since values fill the
oldest slot that awaits them, wherever it is, this takes an induction over the whole
window (`InputBuffer.fillOldest_settle`), whereas retired slots are always those in
front (`InputBuffer.Accounted`).
-/

set_option autoImplicit false

namespace MoveMachine
namespace InputBuffer

/-! ## Calls and answers -/

/-- What a buffer is asked to do. -/
inductive Call where
  | register (source : Address)
  | write (value : Word)
  | fill (sender : Address) (value : Word)
  | pop
  | popMarker
deriving DecidableEq

/-- The slot that a call asks for, if it is one that opens a slot. -/
def Call.slot? : Call → Option Slot
  | .register source => some (.ofRegistration source.registration)
  | .write value => some (.constant value)
  | .fill .. | .pop | .popMarker => none

/-- What a buffer answers. -/
inductive Answer where
  /-- A slot is opened or filled. -/
  | done
  | refused (fault : Fault)
  /-- The slot of the value is retired. -/
  | word (value : Word)
  /-- The slot of a marker is retired. -/
  | marker
  /-- There was nothing to retire. -/
  | nothing
deriving DecidableEq

/-- Whether a call has failed. -/
def Answer.isFailure : Answer → Bool
  | .refused _ | .nothing => true
  | .done | .word _ | .marker => false

/-- What an operation that fails leaves behind is the buffer that was there. -/
def conclude (buffer : InputBuffer) : Except Fault InputBuffer → InputBuffer × Answer
  | .ok after => (after, .done)
  | .error fault => (buffer, .refused fault)

/-- The buffer that a call leaves behind, and its answer. -/
def perform (buffer : InputBuffer) : Call → InputBuffer × Answer
  | .register source => buffer.conclude (buffer.register source)
  | .write value => buffer.conclude (buffer.write value)
  | .fill sender value => buffer.conclude (buffer.fill sender value)
  | .pop =>
    match buffer.pop? with
    | some (value, after) => (after, .word value)
    | none => (buffer, .nothing)
  | .popMarker =>
    match buffer.popMarker? with
    | some after => (after, .marker)
    | none => (buffer, .nothing)

/-- Calls with their answers, oldest first. -/
abbrev Transcript := List (Call × Answer)

/-- A new buffer after a history of calls, with the transcript. -/
def serve (depth : Depth) (calls : List Call) : InputBuffer × Transcript :=
  calls.foldl (fun reached call =>
    ((reached.1.perform call).1, reached.2 ++ [(call, (reached.1.perform call).2)]))
    (.empty depth, [])

/-- What retiring a slot answers, unless the slot still awaits its value. -/
def leaving? : Slot → Option Answer
  | .awaiting _ => none
  | .arrived _ value | .constant value => some (.word value)
  | .marker => some .marker

/-! ## Slots and the values that come for them -/

/-- A slot once values have arrived, if it is the one with a rank among those of its sender. -/
def settled (arrived : Address → List Word) (rank : Nat) : Slot → Slot
  | .awaiting sender =>
    match (arrived sender)[rank]? with
    | some value => .arrived sender value
    | none => .awaiting sender
  | slot => slot

/-- The slots that were opened, once values have arrived. -/
def settle (arrived : Address → List Word) (opened : List Slot) : List Slot :=
  opened.mapIdx fun index slot => settled arrived ((opened.take index).count slot) slot

/-- The values that are left for the slots behind one. -/
def behind (arrived : Address → List Word) : Slot → Address → List Word
  | .awaiting sender => Function.update arrived sender (arrived sender).tail
  | _ => arrived

namespace Transcript

/-- The slots opened, as they were then. -/
def opened (past : Transcript) : List Slot :=
  past.flatMap fun
    | (call, .done) => call.slot?.toList
    | _ => []

/-- The values taken in from a sender. -/
def arrived (past : Transcript) (sender : Address) : List Word :=
  past.flatMap fun
    | (.fill origin value, .done) => if origin = sender then [value] else []
    | _ => []

/-- The answers with which slots were retired. -/
def retired (past : Transcript) : List Answer :=
  past.flatMap fun
    | (.pop, .word value) => [.word value]
    | (.popMarker, .marker) => [.marker]
    | _ => []

/-- All slots ever opened: the one with a rank among those of a sender has got the value with this
rank among those taken in from it, if there were so many. -/
def window (past : Transcript) : List Slot := settle past.arrived past.opened

/-- The window once one more value from a sender has come. -/
def refilled (past : Transcript) (sender : Address) (value : Word) : List Slot :=
  settle (Function.update past.arrived sender (past.arrived sender ++ [value])) past.opened

/-- The oldest slot that is not retired. -/
def next? (past : Transcript) : Option Slot := past.window[past.retired.length]?

/-- The answers with which slots that were opened for a sender were retired. -/
def retiredFrom (past : Transcript) (sender : Address) : List Answer :=
  ((past.opened.zip past.retired).filter (·.1 = .awaiting sender)).map (·.2)

/-- What a buffer answers to a call after a history. -/
def answer (past : Transcript) (depth : Depth) : Call → Answer
  | .register _ | .write _ =>
    if past.opened.length = past.retired.length + depth.value then
      .refused (.overflow .sources depth.value)
    else .done
  | .fill sender _ =>
    if sender.isNull = false ∧ (past.arrived sender).length < past.opened.count (.awaiting sender)
    then .done
    else .refused (.unmatchedData sender)
  | .pop =>
    match past.next?.bind Slot.value? with
    | some value => .word value
    | none => .nothing
  | .popMarker => if past.next? = some .marker then .marker else .nothing

section Closed

variable {past : Transcript} {call : Call} {answer : Answer} (other : answer ≠ .done)
include other

theorem opened_of_ne : opened (past ++ [(call, answer)]) = past.opened := by
  cases answer <;> simp [opened] at other ⊢

theorem arrived_of_ne : arrived (past ++ [(call, answer)]) = past.arrived := by
  funext sender
  cases answer <;> simp [arrived] at other ⊢

theorem window_of_ne : window (past ++ [(call, answer)]) = past.window := by
  rw [window, opened_of_ne other, arrived_of_ne other, window]

end Closed
end Transcript

section Settling

variable {arrived : Address → List Word}

section OtherSender

variable {slot : Slot} {sender : Address} (other : slot ≠ .awaiting sender)
include other

theorem behind_of_ne : behind arrived slot sender = arrived sender := by
  cases slot with
  | awaiting another =>
    have apart : sender ≠ another := fun same => other (same ▸ rfl)
    exact Function.update_of_ne apart _ _
  | arrived | constant | marker => rfl

theorem behind_update (values : List Word) :
    behind (Function.update arrived sender values) slot =
      Function.update (behind arrived slot) sender values := by
  cases slot with
  | awaiting another =>
    have apart : another ≠ sender := fun same => other (same ▸ rfl)
    rw [behind, behind, Function.update_of_ne apart, Function.update_comm apart.symm]
  | arrived | constant | marker => rfl

theorem settled_update (values : List Word) (rank : Nat) :
    settled (Function.update arrived sender values) rank slot = settled arrived rank slot := by
  cases slot with
  | awaiting another =>
    have apart : another ≠ sender := fun same => other (same ▸ rfl)
    rw [settled, settled, Function.update_of_ne apart]
  | arrived | constant | marker => rfl

theorem settled_ne (rank : Nat) : settled arrived rank slot ≠ .awaiting sender := by
  cases slot with
  | awaiting another =>
    rw [settled]
    split
    · nofun
    · exact other
  | arrived | constant | marker => exact other

end OtherSender

theorem settled_succ (rank : Nat) (slot : Slot) :
    settled arrived (rank + 1) slot = settled (behind arrived slot) rank slot := by
  cases slot with
  | awaiting sender => simp [settled, behind]
  | arrived | constant | marker => rfl

theorem settled_behind {slot other : Slot} (differs : slot ≠ other) (rank : Nat) :
    settled (behind arrived slot) rank other = settled arrived rank other := by
  cases other with
  | awaiting sender => rw [settled, settled, behind_of_ne differs]
  | arrived | constant | marker => rfl

theorem leaving?_of_value? {slot : Slot} {value : Word} (holds : slot.value? = some value) :
    leaving? slot = some (.word value) := by
  cases slot with
  | arrived | constant => exact congrArg (Option.map Answer.word) holds
  | awaiting | marker => cases holds

/-- Only markers leave as markers. -/
theorem leaving?_settled_eq_marker_iff {rank : Nat} {slot : Slot} :
    leaving? (settled arrived rank slot) = some .marker ↔ slot = .marker := by
  cases slot with
  | awaiting sender =>
    rw [settled]
    split <;> simp [leaving?]
  | arrived | constant | marker => simp [settled, leaving?]

/-- The oldest slot takes the oldest value from its sender. -/
theorem settle_cons (slot : Slot) (later : List Slot) :
    settle arrived (slot :: later) =
      settled arrived 0 slot :: settle (behind arrived slot) later := by
  rw [settle, List.mapIdx_cons]
  refine congrArg _ (List.mapIdx_eq_mapIdx_iff.mpr fun index inside => ?_)
  rw [List.take_succ_cons]
  by_cases same : slot = later[index]
  · rw [same, List.count_cons_self, settled_succ]
  · rw [List.count_cons_of_ne same, settled_behind same]

/-- A slot that is opened last has no value yet. -/
theorem settle_append {opened : List Slot} {slot : Slot}
    (served : ∀ sender, (arrived sender).length ≤ opened.count (.awaiting sender)) :
    settle arrived (opened ++ [slot]) = settle arrived opened ++ [slot] := by
  have unfilled : settled arrived (opened.count slot) slot = slot := by
    cases slot with
    | awaiting sender => simp [settled, served sender]
    | arrived | constant | marker => rfl
  rw [settle, List.mapIdx_concat, List.take_left' rfl, unfilled, settle]
  refine congrArg (· ++ [slot]) (List.mapIdx_eq_mapIdx_iff.mpr fun index inside => ?_)
  rw [List.take_append_of_le_length (Nat.le_of_lt inside)]

/-- A value fills a slot exactly if more slots were opened for its sender than values came, and it
is then the next value for the slots of this sender. -/
theorem fillOldest_settle (sender : Address) (value : Word) (opened : List Slot) :
    fillOldest sender value (settle arrived opened) =
      if (arrived sender).length < opened.count (.awaiting sender) then
        some (settle (Function.update arrived sender (arrived sender ++ [value])) opened)
      else none := by
  -- The values left for the slots behind the first are those of the induction hypothesis.
  induction opened generalizing arrived with
  | nil => simp [settle, fillOldest]
  | cons slot later ih =>
    rw [settle_cons, fillOldest]
    by_cases same : slot = .awaiting sender
    · subst same
      rw [List.count_cons_self, settle_cons, behind, behind, Function.update_self,
        Function.update_idem]
      cases waiting : arrived sender with
      | nil =>
        have unchanged : Function.update arrived sender [] = arrived :=
          Function.update_eq_self_iff.mpr waiting.symm
        simp [settled, waiting, unchanged]
      | cons oldest further =>
        have ih := @ih (Function.update arrived sender further)
        rw [Function.update_self, Function.update_idem] at ih
        simp [settled, waiting, ih]
    · have ih := @ih (behind arrived slot)
      rw [behind_of_ne same] at ih
      rw [if_neg (settled_ne same 0), ih, List.count_cons_of_ne same, settle_cons,
        settled_update same, behind_update same]
      split <;> rfl

@[simp] theorem length_settle (opened : List Slot) :
    (settle arrived opened).length = opened.length :=
  List.length_mapIdx

/-- If the slots in front are retired, those of a sender answered with its values, in order. -/
theorem answers_prefix {opened : List Slot} {answers : List Answer}
    (leaves : ((settle arrived opened).take answers.length).map leaving? = answers.map some)
    (sender : Address) :
    ((opened.zip answers).filter (·.1 = .awaiting sender)).map (·.2) <+:
      (arrived sender).map .word := by
  induction opened generalizing arrived answers with
  | nil => exact List.nil_prefix
  | cons slot later ih =>
    cases answers with
    | nil => exact List.nil_prefix
    | cons answer answers =>
      rw [settle_cons, List.length_cons, List.take_succ_cons, List.map_cons, List.map_cons,
        List.cons.injEq] at leaves
      have ih := ih leaves.2
      rw [List.zip_cons_cons]
      by_cases same : slot = .awaiting sender
      · subst same
        rw [behind, Function.update_self] at ih
        cases waiting : arrived sender with
        | nil => simp [settled, waiting, leaving?] at leaves
        | cons oldest further =>
          have isOldest : answer = .word oldest := by
            simpa [settled, waiting, leaving?, eq_comm] using leaves.1
          rw [waiting, List.tail_cons] at ih
          simpa [isOldest] using ih
      · rw [behind_of_ne same] at ih
        simpa [same] using ih

/-- A retired slot has answered with what it held. -/
theorem exists_leaving?_of_mem {opened : List Slot} {answers : List Answer}
    (leaves : ((settle arrived opened).take answers.length).map leaving? = answers.map some)
    {entry : Slot × Answer} (member : entry ∈ opened.zip answers) :
    ∃ rank, leaving? (settled arrived rank entry.1) = some entry.2 := by
  obtain ⟨place, isEntry⟩ := List.mem_iff_getElem?.mp member
  obtain ⟨isSlot, isAnswer⟩ := List.getElem?_zip_eq_some.mp isEntry
  have inside := (List.getElem?_eq_some_iff.mp isAnswer).1
  have here := congrArg (·[place]?) leaves
  simp only [List.getElem?_map, List.getElem?_take_of_lt inside, settle, List.getElem?_mapIdx,
    isSlot, isAnswer, Option.map_some, Option.some.injEq] at here
  exact ⟨_, here⟩

/-- Among equal slots there is one with every rank. -/
theorem exists_rank {opened : List Slot} {slot : Slot} {rank : Nat}
    (inside : rank < opened.count slot) :
    ∃ place, opened[place]? = some slot ∧ (opened.take place).count slot = rank := by
  induction opened generalizing rank with
  | nil => simp at inside
  | cons first later ih =>
    by_cases same : first = slot
    · subst same
      cases rank with
      | zero => exact ⟨0, rfl, rfl⟩
      | succ rank =>
        rw [List.count_cons_self] at inside
        obtain ⟨place, isOpened, hasRank⟩ := ih (Nat.lt_of_succ_lt_succ inside)
        exact ⟨place + 1, isOpened, by rw [List.take_succ_cons, List.count_cons_self, hasRank]⟩
    · rw [List.count_cons_of_ne same] at inside
      obtain ⟨place, isOpened, hasRank⟩ := ih inside
      exact ⟨place + 1, isOpened, by rw [List.take_succ_cons, List.count_cons_of_ne same, hasRank]⟩

end Settling

/-- A value passes by slots that do not await it. -/
theorem fillOldest_append {sender : Address} {value : Word} {gone slots : List Slot}
    (absent : Slot.awaiting sender ∉ gone) :
    fillOldest sender value (gone ++ slots) = (fillOldest sender value slots).map (gone ++ ·) := by
  induction gone with
  | nil => simp
  | cons slot gone ih =>
    rw [List.mem_cons, not_or] at absent
    rw [List.cons_append, fillOldest, if_neg (Ne.symm absent.1), ih absent.2, Option.map_map]
    rfl

/-! ## The account of a transcript -/

/-- A buffer and the transcript of all calls since it was new. -/
structure Accounted (depth : Depth) (past : Transcript) (buffer : InputBuffer) : Prop where
  sameDepth : buffer.depth = depth
  bounded : buffer.slots.length ≤ depth.value
  /-- Every value that was taken in has a slot. -/
  served : ∀ sender, (past.arrived sender).length ≤ past.opened.count (.awaiting sender)
  /-- No value is awaited from the null address. -/
  real : Slot.awaiting .null ∉ past.opened
  leaves : (past.window.take past.retired.length).map leaving? = past.retired.map some
  slots : buffer.slots = past.window.drop past.retired.length

/-- The buffer answers a call as the transcript says, and the transcript with this call accounts for
what the call leaves behind. -/
def Continues (depth : Depth) (past : Transcript) (buffer : InputBuffer) (call : Call) : Prop :=
  (buffer.perform call).2 = past.answer depth call ∧
    Accounted depth (past ++ [(call, (buffer.perform call).2)]) (buffer.perform call).1

/-- No slot awaits a value from the null address. -/
theorem Call.slot?_ne {call : Call} {slot : Slot} (asks : call.slot? = some slot) :
    slot ≠ .awaiting .null := by
  rintro rfl
  cases call with
  | register source =>
    rw [slot?, Option.some.injEq, Address.registration] at asks
    split at asks
    · cases asks
    · next named =>
      cases asks
      exact named rfl
  | write | fill | pop | popMarker => cases asks

namespace Accounted

variable {depth : Depth} {past after : Transcript} {buffer : InputBuffer}
  (accounted : Accounted depth past buffer)
include accounted

theorem length_opened :
    past.opened.length = past.retired.length + buffer.slots.length := by
  have count := congrArg List.length accounted.leaves
  have rest := congrArg List.length accounted.slots
  simp only [Transcript.window, List.length_map, List.length_take, List.length_drop,
    length_settle] at count rest
  omega

/-- Retired slots do not await values. -/
theorem awaiting_not_mem (sender : Address) :
    Slot.awaiting sender ∉ past.window.take past.retired.length := by
  intro member
  have noAnswer : leaving? (.awaiting sender) ∈ past.retired.map some := by
    rw [← accounted.leaves]
    exact List.mem_map_of_mem member
  simp [leaving?] at noAnswer

theorem head?_slots : buffer.slots.head? = past.next? := by
  rw [accounted.slots, List.head?_drop, Transcript.next?]

theorem peek?_eq : buffer.peek? = past.next?.bind Slot.value? := by
  rw [peek?, accounted.head?_slots]

theorem hasMarker_iff : buffer.hasMarker = true ↔ past.next? = some .marker := by
  rw [hasMarker, accounted.head?_slots, Option.any_eq_true]
  constructor
  · rintro ⟨slot, next, isMarker⟩
    cases slot with
    | marker => exact next
    | awaiting | arrived | constant => cases isMarker
  · exact fun next => ⟨_, next, rfl⟩

theorem isFull_eq :
    buffer.isFull = decide (past.opened.length = past.retired.length + depth.value) := by
  have total := accounted.length_opened
  have bounded := accounted.bounded
  rw [isFull, size, accounted.sameDepth]
  exact decide_eq_decide.mpr (by omega)

/-- Retired slots do not stand in the way of a value. -/
theorem fillOldest_window (sender : Address) (value : Word) :
    fillOldest sender value past.window =
      (fillOldest sender value buffer.slots).map (past.window.take past.retired.length ++ ·) := by
  have split : past.window.take past.retired.length ++ buffer.slots = past.window := by
    rw [accounted.slots, List.take_append_drop]
  rw [← fillOldest_append (accounted.awaiting_not_mem sender), split]

/-- A value that is expected fills a slot that is not retired. -/
theorem fillOldest_of_lt {sender : Address} (value : Word)
    (expected : (past.arrived sender).length < past.opened.count (.awaiting sender)) :
    fillOldest sender value buffer.slots =
        some ((past.refilled sender value).drop past.retired.length) ∧
      (past.refilled sender value).take past.retired.length =
        past.window.take past.retired.length := by
  have fills := accounted.fillOldest_window sender value
  rw [Transcript.window, fillOldest_settle, if_pos expected, ← Transcript.window] at fills
  obtain ⟨filled, isFilled, split⟩ := Option.map_eq_some_iff.mp fills.symm
  have size : (past.window.take past.retired.length).length = past.retired.length := by
    simpa using congrArg List.length accounted.leaves
  rw [isFilled, Transcript.refilled, ← split, List.drop_left' size, List.take_left' size]
  exact ⟨rfl, rfl⟩

/-- A value that is not expected finds no slot. -/
theorem fillOldest_of_not_lt {sender : Address} (value : Word)
    (unexpected : ¬(past.arrived sender).length < past.opened.count (.awaiting sender)) :
    fillOldest sender value buffer.slots = none := by
  have fills := accounted.fillOldest_window sender value
  rw [Transcript.window, fillOldest_settle, if_neg unexpected] at fills
  exact Option.map_eq_none_iff.mp fills.symm

/-! ### What a call adds to the account -/

/-- A call that fails adds nothing. -/
theorem idle {call : Call} {answer : Answer} (fails : answer.isFailure = true) :
    Accounted depth (past ++ [(call, answer)]) buffer := by
  have notDone : answer ≠ .done := by
    rintro rfl
    cases fails
  have retired : Transcript.retired (past ++ [(call, answer)]) = past.retired := by
    cases answer <;> simp [Transcript.retired, Answer.isFailure] at fails ⊢
  refine ⟨accounted.sameDepth, accounted.bounded, ?_, ?_, ?_, ?_⟩
  · rw [Transcript.opened_of_ne notDone, Transcript.arrived_of_ne notDone]
    exact accounted.served
  · rw [Transcript.opened_of_ne notDone]
    exact accounted.real
  · rw [Transcript.window_of_ne notDone, retired, accounted.leaves]
  · rw [Transcript.window_of_ne notDone, retired, accounted.slots]

theorem opens {slot : Slot} (room : buffer.isFull = false) (real : slot ≠ .awaiting .null)
    (opened : after.opened = past.opened ++ [slot]) (arrived : after.arrived = past.arrived)
    (retired : after.retired = past.retired) :
    Accounted depth after { buffer with slots := buffer.slots ++ [slot] } := by
  have window : after.window = past.window ++ [slot] := by
    rw [Transcript.window, opened, arrived, settle_append accounted.served, Transcript.window]
  have inside : past.retired.length ≤ past.window.length := by
    rw [Transcript.window, length_settle, accounted.length_opened]
    exact Nat.le_add_right _ _
  refine ⟨accounted.sameDepth, ?_, ?_, ?_, ?_, ?_⟩
  · rw [isFull, size, accounted.sameDepth, decide_eq_false_iff_not] at room
    rw [List.length_append, List.length_singleton]
    omega
  · intro sender
    rw [arrived, opened, List.count_append]
    exact Nat.le_add_right_of_le (accounted.served sender)
  · rw [opened, List.mem_append, List.mem_singleton, not_or]
    exact ⟨accounted.real, real.symm⟩
  · rw [window, retired, List.take_append_of_le_length inside, accounted.leaves]
  · rw [window, retired, List.drop_append_of_le_length inside, accounted.slots]

theorem fills {sender : Address} {value : Word}
    (expected : (past.arrived sender).length < past.opened.count (.awaiting sender))
    (opened : after.opened = past.opened)
    (arrived : after.arrived =
      Function.update past.arrived sender (past.arrived sender ++ [value]))
    (retired : after.retired = past.retired) :
    Accounted depth after
      { buffer with slots := (past.refilled sender value).drop past.retired.length } := by
  have window : after.window = past.refilled sender value := by
    rw [Transcript.window, opened, arrived, Transcript.refilled]
  refine ⟨accounted.sameDepth, ?_, ?_, ?_, ?_, ?_⟩
  · have total := accounted.length_opened
    have bounded := accounted.bounded
    rw [List.length_drop, Transcript.refilled, length_settle]
    omega
  · intro other
    rw [arrived, opened]
    by_cases same : other = sender
    · rw [same, Function.update_self, List.length_append, List.length_singleton]
      exact expected
    · rw [Function.update_of_ne same]
      exact accounted.served other
  · rw [opened]
    exact accounted.real
  · rw [window, retired, (accounted.fillOldest_of_lt value expected).2, accounted.leaves]
  · rw [window, retired]

theorem retires {slot : Slot} {rest : List Slot} {call : Call} {answer : Answer}
    (oldest : buffer.slots = slot :: rest) (leaving : leaving? slot = some answer)
    (retiring : Transcript.retired [(call, answer)] = [answer]) :
    Accounted depth (past ++ [(call, answer)]) { buffer with slots := rest } := by
  have notDone : answer ≠ .done := by
    rintro rfl
    cases call <;> cases retiring
  have retired : Transcript.retired (past ++ [(call, answer)]) = past.retired ++ [answer] := by
    rw [← retiring]
    exact List.flatMap_append
  have remain : past.window.drop past.retired.length = slot :: rest := by
    rw [← accounted.slots, oldest]
  have next : past.window[past.retired.length]? = some slot := by
    rw [← List.head?_drop, remain, List.head?_cons]
  have bounded := accounted.bounded
  rw [oldest, List.length_cons] at bounded
  refine ⟨accounted.sameDepth, Nat.le_of_succ_le bounded, ?_, ?_, ?_, ?_⟩
  · rw [Transcript.opened_of_ne notDone, Transcript.arrived_of_ne notDone]
    exact accounted.served
  · rw [Transcript.opened_of_ne notDone]
    exact accounted.real
  · rw [Transcript.window_of_ne notDone, retired, List.length_append, List.length_singleton,
      List.take_add_one, next, List.map_append, accounted.leaves, List.map_append,
      Option.toList_some, List.map_singleton, leaving, List.map_singleton]
  · rw [Transcript.window_of_ne notDone, retired, List.length_append, List.length_singleton,
      ← List.drop_drop, remain, List.drop_one, List.tail_cons]

/-! ### What a buffer answers -/

theorem continues_slot {call : Call} {slot : Slot} (asks : call.slot? = some slot) :
    Continues depth past buffer call := by
  have performs : buffer.perform call = buffer.conclude (buffer.openSlot slot) := by
    cases call <;> cases asks <;> rfl
  have expects : past.answer depth call =
      if past.opened.length = past.retired.length + depth.value then
        .refused (.overflow .sources depth.value)
      else .done := by
    cases call <;> cases asks <;> rfl
  rw [Continues, performs, expects]
  cases room : buffer.isFull with
  | true =>
    have full := accounted.isFull_eq.symm.trans room
    rw [decide_eq_true_iff] at full
    rw [openSlot, room, if_pos rfl, if_pos full, conclude, accounted.sameDepth]
    exact ⟨rfl, accounted.idle rfl⟩
  | false =>
    have notFull := accounted.isFull_eq.symm.trans room
    rw [decide_eq_false_iff_not] at notFull
    rw [openSlot_of_room slot room, if_neg notFull, conclude]
    refine ⟨rfl, accounted.opens room (Call.slot?_ne asks) ?_ ?_ ?_⟩
    · simp [Transcript.opened, asks]
    · funext sender
      cases call <;> simp [Transcript.arrived, Call.slot?] at asks ⊢
    · simp [Transcript.retired]

theorem continues_fill (sender : Address) (value : Word) :
    Continues depth past buffer (.fill sender value) := by
  by_cases expected : (past.arrived sender).length < past.opened.count (.awaiting sender)
  · obtain ⟨isFilled, -⟩ := accounted.fillOldest_of_lt value expected
    have named : sender.isNull = false := by
      rw [← Bool.not_eq_true, Address.isNull, beq_iff_eq]
      rintro rfl
      rw [List.count_eq_zero_of_not_mem accounted.real] at expected
      exact Nat.not_lt_zero _ expected
    rw [Continues, perform, fill, isFilled, conclude, Transcript.answer, if_pos ⟨named, expected⟩]
    refine ⟨rfl, accounted.fills expected ?_ ?_ ?_⟩
    · simp [Transcript.opened, Call.slot?]
    · funext other
      rw [Function.update_apply]
      split
      · next same => simp [Transcript.arrived, same]
      · next apart => simp [Transcript.arrived, Ne.symm apart]
    · simp [Transcript.retired]
  · have unfilled := accounted.fillOldest_of_not_lt value expected
    rw [Continues, perform, fill, unfilled, conclude, Transcript.answer,
      if_neg fun both => expected both.2]
    exact ⟨rfl, accounted.idle rfl⟩

theorem continues_pop : Continues depth past buffer .pop := by
  rw [Continues, perform, pop?, Transcript.answer, ← accounted.peek?_eq]
  cases peeks : buffer.peek? with
  | none => exact ⟨rfl, accounted.idle rfl⟩
  | some value =>
    obtain ⟨slot, oldest, holds⟩ := peek?_eq_some_iff.mp peeks
    obtain ⟨rest, slots⟩ := List.head?_eq_some_iff.mp oldest
    rw [slots, List.tail_cons]
    exact ⟨rfl, accounted.retires slots (leaving?_of_value? holds) rfl⟩

theorem continues_popMarker : Continues depth past buffer .popMarker := by
  rw [Continues, perform, popMarker?, Transcript.answer]
  by_cases isMarker : past.next? = some .marker
  · rw [if_pos isMarker, if_pos (accounted.hasMarker_iff.mpr isMarker)]
    obtain ⟨rest, slots⟩ := List.head?_eq_some_iff.mp (accounted.head?_slots.trans isMarker)
    rw [slots, List.tail_cons]
    exact ⟨rfl, accounted.retires slots rfl rfl⟩
  · rw [if_neg isMarker, if_neg fun found => isMarker (accounted.hasMarker_iff.mp found)]
    exact ⟨rfl, accounted.idle rfl⟩

/-- A buffer answers every call as the transcript says. -/
theorem continues (call : Call) : Continues depth past buffer call := by
  cases call with
  | register | write => exact accounted.continues_slot rfl
  | fill sender value => exact accounted.continues_fill sender value
  | pop => exact accounted.continues_pop
  | popMarker => exact accounted.continues_popMarker

end Accounted

/-! ## Histories -/

theorem accounted_empty (depth : Depth) : Accounted depth [] (empty depth) :=
  ⟨rfl, Nat.zero_le _, fun _ => Nat.zero_le _, List.not_mem_nil, rfl, rfl⟩

/-- Whatever a new buffer is asked, the transcript accounts for it. -/
theorem accounted_serve (depth : Depth) (calls : List Call) :
    Accounted depth (serve depth calls).2 (serve depth calls).1 := by
  induction calls using List.reverseRecOn with
  | nil => exact accounted_empty depth
  | append_singleton earlier call ih =>
    rw [serve, List.foldl_append]
    exact (ih.continues call).2

/-- A call that fails changes nothing. -/
theorem perform_of_isFailure {buffer : InputBuffer} {call : Call}
    (fails : (buffer.perform call).2.isFailure = true) : (buffer.perform call).1 = buffer := by
  have concluded (result : Except Fault InputBuffer)
      (fails : (buffer.conclude result).2.isFailure = true) :
      (buffer.conclude result).1 = buffer := by
    cases result with
    | ok after => cases fails
    | error fault => rfl
  cases call with
  | register | write | fill => exact concluded _ fails
  | pop =>
    rw [perform] at fails ⊢
    cases pops : buffer.pop? with
    | none => rfl
    | some popped => simp [pops, Answer.isFailure] at fails
  | popMarker =>
    rw [perform] at fails ⊢
    cases pops : buffer.popMarker? with
    | none => rfl
    | some after => simp [pops, Answer.isFailure] at fails

/-- Whatever a buffer is asked, its slots leave in the order in which they were opened: the retired
ones are those opened first, each answered with its value or as a marker, and the others are in the
buffer. A constant leaves as itself. Each value from a sender fills the slot with the same rank among
those opened for the sender, and these slots leave with these values. What the buffer answers next is
settled by what was asked and answered before, and a call that fails changes nothing. -/
theorem reorder_window (depth : Depth) (calls : List Call) :
    let buffer := (serve depth calls).1
    let past := (serve depth calls).2
    buffer.slots = past.window.drop past.retired.length ∧
    (past.window.take past.retired.length).map leaving? = past.retired.map some ∧
    (∀ entry ∈ past.opened.zip past.retired,
      (∀ value, entry.1 = .constant value → entry.2 = .word value) ∧
      (entry.1 = .marker ↔ entry.2 = .marker)) ∧
    (∀ sender rank value, (past.arrived sender)[rank]? = some value →
      ∃ place, past.opened[place]? = some (.awaiting sender) ∧
        (past.opened.take place).count (.awaiting sender) = rank ∧
        past.window[place]? = some (.arrived sender value)) ∧
    (∀ sender, past.retiredFrom sender <+: (past.arrived sender).map .word) ∧
    ∀ call, (buffer.perform call).2 = past.answer depth call ∧
      ((buffer.perform call).2.isFailure = true → (buffer.perform call).1 = buffer) := by
  intro buffer past
  have accounted : Accounted depth past buffer := accounted_serve depth calls
  refine ⟨accounted.slots, accounted.leaves, ?_, ?_, answers_prefix accounted.leaves, ?_⟩
  · intro entry member
    obtain ⟨rank, leaves⟩ := exists_leaving?_of_mem accounted.leaves member
    constructor
    · intro value isConstant
      rw [isConstant] at leaves
      exact (Option.some.inj leaves).symm
    · rw [← leaving?_settled_eq_marker_iff, leaves, Option.some.injEq]
  · intro sender rank value isValue
    have inside := (List.getElem?_eq_some_iff.mp isValue).1
    obtain ⟨place, isOpened, hasRank⟩ :=
      exists_rank (Nat.lt_of_lt_of_le inside (accounted.served sender))
    refine ⟨place, isOpened, hasRank, ?_⟩
    rw [Transcript.window, settle, List.getElem?_mapIdx, isOpened, Option.map_some, hasRank, settled,
      isValue]
  · exact fun call => ⟨(accounted.continues call).1, perform_of_isFailure⟩

/-- Two values that arrive in the other order than their slots were opened, before a constant and a
marker. -/
def crossed : List Call :=
  [.register ⟨0, 0⟩, .register ⟨1, 0⟩, .write (.ofNat 5), .register .null, .write (.ofNat 6),
    .fill ⟨1, 0⟩ (.ofNat 20), .pop, .fill ⟨0, 0⟩ (.ofNat 10), .fill ⟨0, 0⟩ (.ofNat 11),
    .pop, .pop, .pop, .pop, .popMarker]

theorem crossed_reorder_window :
    let depth : Depth := ⟨4, by decide, by decide⟩
    let past := (serve depth crossed).2
    past.map (·.2) =
      [.done, .done, .done, .done, .refused (.overflow .sources 4),
        .done, .nothing, .done, .refused (.unmatchedData ⟨0, 0⟩),
        .word (.ofNat 10), .word (.ofNat 20), .word (.ofNat 5), .nothing, .marker] ∧
    past.retiredFrom ⟨1, 0⟩ = [.word (.ofNat 20)] ∧
    past.retiredFrom ⟨1, 0⟩ <+: (past.arrived ⟨1, 0⟩).map .word ∧
    (serve depth crossed).1.slots = past.window.drop past.retired.length ∧
    ((serve depth crossed).1.perform .pop).2 = past.answer depth .pop := by
  intro depth past
  obtain ⟨remain, -, -, -, inOrder, next⟩ := reorder_window depth crossed
  exact ⟨by decide, by decide, inOrder _, remain, (next .pop).1⟩

end InputBuffer
end MoveMachine
