import MoveMachine.Proofs.Network.Completion
import MoveMachine.Proofs.Network.Course

/-!
# The front of an input

Which slot is at the front of an input follows from how many values were taken
from there, and not from how far anything else has got: markers are never taken,
so the number of values taken tells the instruction whose slot comes next
(`Network.Account.front`). Of two networks that issue the same instructions, and
whose outputs were given the same values as far as they go, the kernels that
have taken as many values from an input find the same value there, if they find
any (`Network.Front.unique`). If only one finds a value and the other is
complete, some output gave that value in one of them and not yet in the other
(`Network.Completed.lacks`).
-/

set_option autoImplicit false

namespace MoveMachine

/-! ## Positions in lists -/

section Positions

variable {Item : Type} {list : List Item} {test : Item → Bool}

/-- Before an item that passes a test fewer items pass than in the whole list. -/
theorem countP_take_lt {index : Nat} {item : Item} (found : list[index]? = some item)
    (passes : test item = true) : (list.take index).countP test < list.countP test := by
  have ranked := getElem?_filter_countP test found passes
  rw [List.countP_eq_length_filter (l := list)]
  exact (List.getElem?_eq_some_iff.mp ranked).1

/-- Items that pass a test are told apart by how many pass before them. -/
theorem index_unique {first second : Nat} {item other : Item} (found : list[first]? = some item)
    (foundOther : list[second]? = some other) (passes : test item = true)
    (passesToo : test other = true)
    (same : (list.take first).countP test = (list.take second).countP test) : first = second := by
  have ordered {early late : Nat} {item : Item} (found : list[early]? = some item)
      (passes : test item = true) (before : early < late) :
      (list.take early).countP test < (list.take late).countP test := by
    have inside : (list.take late)[early]? = some item := by
      rw [List.getElem?_take_of_lt before, found]
    have fewer := countP_take_lt inside passes
    rwa [List.take_take, Nat.min_eq_left (Nat.le_of_lt before)] at fewer
  rcases Nat.lt_trichotomy first second with before | equal | after
  · exact absurd same (Nat.ne_of_lt (ordered found passes before))
  · exact equal
  · exact absurd same.symm (Nat.ne_of_lt (ordered foundOther passesToo after))

/-- An item among those that pass a test is found in the whole list. -/
theorem exists_index_of_filter {rank : Nat} {item : Item}
    (found : (list.filter test)[rank]? = some item) :
    ∃ index, list[index]? = some item ∧ (list.take index).countP test = rank := by
  induction list generalizing rank with
  | nil => simp at found
  | cons first later ih =>
    by_cases passes : test first = true
    · rw [List.filter_cons_of_pos passes] at found
      cases rank with
      | zero => exact ⟨0, by simpa using found, rfl⟩
      | succ rank =>
        obtain ⟨index, isItem, ranked⟩ := ih (by simpa using found)
        exact ⟨index + 1, by simpa using isItem, by simp [passes, ranked]⟩
    · rw [List.filter_cons_of_neg passes] at found
      obtain ⟨index, isItem, ranked⟩ := ih found
      exact ⟨index + 1, by simpa using isItem, by simp [passes, ranked]⟩

/-- Lists that agree as far as they go hold the same item at an index. -/
theorem getElem?_unique {other : List Item} (agree : list <+: other ∨ other <+: list) {index : Nat}
    {first second : Item} (found : list[index]? = some first)
    (foundOther : other[index]? = some second) : first = second := by
  rcases agree with ⟨more, rfl⟩ | ⟨more, rfl⟩
  · rw [List.getElem?_append_left (List.getElem?_eq_some_iff.mp found).1, found] at foundOther
    exact Option.some.inj foundOther
  · rw [List.getElem?_append_left (List.getElem?_eq_some_iff.mp foundOther).1, foundOther] at found
    exact (Option.some.inj found).symm

end Positions

namespace Slot

/-- Whether a value belongs into a slot. -/
def isForValue (slot : Slot) : Bool := !slot.isMarker

@[simp] theorem isForValue_asOpened (slot : Slot) : slot.asOpened.isForValue = slot.isForValue := by
  cases slot <;> rfl

theorem isForValue_of_value? {slot : Slot} {value : Word} (holds : slot.value? = some value) :
    slot.isForValue = true := by
  cases slot with
  | marker => cases holds
  | awaiting | arrived | constant => rfl

end Slot

namespace Instruction

/-- The slots that instructions open in an input, in their order. -/
def slotsFor (issued : List Instruction) (input : Address) : List Slot :=
  (issued.filter (·.goesTo input)).map slot

theorem eq_move_of_slot {instruction : Instruction} {source : Address}
    (opens : instruction.slot = .awaiting source) :
    instruction = .move source instruction.destination ∧ source.isNull = false := by
  cases instruction with
  | move sender destination =>
    cases isNull : sender.isNull with
    | true => simp [slot, Address.registration, isNull, Slot.ofRegistration] at opens
    | false =>
      have same : sender = source := by
        simpa [slot, Address.registration, isNull, Slot.ofRegistration] using opens
      subst same
      exact ⟨rfl, isNull⟩
  | immediate value destination => cases opens
  | jump target => cases opens

/-- A slot that awaits a value is that of a move. -/
theorem exists_move_of_slotsFor {issued : List Instruction} {input source : Address} {rank : Nat}
    (opened : (slotsFor issued input)[rank]? = some (.awaiting source)) :
    ∃ index, issued[index]? = some (.move source input) ∧
      (issued.take index).countP (·.goesTo input) = rank ∧ input.isNull = false ∧
        source.isNull = false := by
  rw [slotsFor, List.getElem?_map] at opened
  obtain ⟨instruction, found, isSlot⟩ := Option.map_eq_some_iff.mp opened
  obtain ⟨real, destination⟩ := goesTo_iff.mp (List.mem_filter.mp (List.mem_of_getElem? found)).2
  obtain ⟨isMove, realSource⟩ := eq_move_of_slot isSlot
  rw [isMove, destination] at found
  obtain ⟨index, issuedAt, ranked⟩ := exists_index_of_filter found
  exact ⟨index, issuedAt, ranked, real, realSource⟩

end Instruction

namespace Network

variable {program all : List Instruction} {depth : Nat} {history other : History}
  {start network final : Network}

/-! ## Taking values -/

/-- The values that a firing takes from an input. -/
theorem countP_taken {unit : UInt8} {taken : Firing}
    (holds : ∀ entry ∈ taken, ∃ value, entry.2.value? = some value) (input : Address) :
    (((taken.map fun entry => ((⟨unit, entry.1⟩ : Address), entry.2)).filter
        (·.1 = input)).map (·.2)).countP Slot.isForValue =
      if unit = input.unit then taken.countP (·.1 = input.buffer) else 0 := by
  rw [List.countP_map, List.countP_filter, List.countP_map]
  split
  · rename_i own
    subst own
    refine List.countP_congr fun entry member => ?_
    obtain ⟨value, holdsValue⟩ := holds entry member
    obtain ⟨number, buffer⟩ := input
    simp [Slot.isForValue_of_value? holdsValue]
  · rename_i foreign
    refine List.countP_eq_zero.mpr fun entry _ => ?_
    have elsewhere : (⟨unit, entry.1⟩ : Address) ≠ input := fun same =>
      foreign (congrArg Address.unit same)
    simp [elsewhere]

/-- The values that were taken from an input were taken by the firings of its unit. -/
theorem Evolves.countP_retiredAt (evolves : Evolves program depth start history network)
    (undisturbed : history.Undisturbed) (input : Address) :
    (history.retiredAt input).countP Slot.isForValue =
      (history.firings input.unit).flatten.countP (·.1 = input.buffer) := by
  induction evolves with
  | start => rfl
  | @step history network after event earlier happens ih =>
    obtain ⟨undisturbedBefore, quiet⟩ := (History.undisturbed_append _).mp undisturbed
    have now : event.disturbs = false := quiet event List.mem_cons_self
    rw [History.retiredAt_append, History.firings_append, History.firings_singleton,
      List.flatten_append, List.countP_append, List.countP_append, ih undisturbedBefore]
    congr 1
    cases happens with
    | fail | write => cases now
    | issue | halt | fetch | openSlot | direct | send | arrive => rfl
    | @clear cleared =>
      by_cases here : cleared = input <;>
        simp [History.retiredAt, here, Slot.isForValue, Slot.isMarker]
    | @fire unit kernel taken words reaction present awaits room heads holds =>
      rw [History.retiredAt, History.retired_singleton, Event.retired, countP_taken]
      · by_cases here : unit = input.unit <;> simp [here]
      · exact fun entry => exists_value_of_holds holds

/-! ## Slots by the values taken -/

/-- The slots ever opened in an input are the first of those that all instructions open. -/
theorem Account.asOpened_prefix (account : Account history network)
    (issued : history.issued <+: all) (input : Address) :
    (window history network input).map Slot.asOpened <+: Instruction.slotsFor all input := by
  have opened : history.opened input <+: history.issued.filter (·.goesTo input) :=
    ⟨_, account.opened_append input⟩
  rw [account.windows, Instruction.slotsFor]
  exact (opened.trans (issued.filter _)).map _

/-- The oldest slot of an input, among all that were opened there. -/
theorem window_of_head? (history : History) {input : Address} {slot : Slot}
    (head : (network.slots input).head? = some slot) :
    (window history network input)[(history.retiredAt input).length]? = some slot := by
  obtain ⟨younger, slots⟩ := List.head?_eq_some_iff.mp head
  simp [window, slots]

/-- The oldest slot of an input, among the slots that all instructions open there. -/
theorem Account.front (account : Account history network) (issued : history.issued <+: all)
    {input : Address} {slot : Slot} (head : (network.slots input).head? = some slot) :
    (Instruction.slotsFor all input)[(history.retiredAt input).length]? = some slot.asOpened ∧
      ((Instruction.slotsFor all input).take (history.retiredAt input).length).countP
        Slot.isForValue = (history.retiredAt input).countP Slot.isForValue := by
  have inWindow := window_of_head? history head
  have inside : (history.retiredAt input).length <
      ((window history network input).map Slot.asOpened).length := by
    rw [List.length_map]
    exact (List.getElem?_eq_some_iff.mp inWindow).1
  obtain ⟨later, whole⟩ := account.asOpened_prefix issued input
  constructor
  · rw [← whole, List.getElem?_append_left inside, List.getElem?_map, inWindow, Option.map_some]
  · rw [← whole, List.take_append_of_le_length (Nat.le_of_lt inside), ← List.map_take, window,
      List.take_left, List.countP_map]
    exact List.countP_congr fun slot _ => by simp

/-- The instruction that opened a slot has been issued. -/
theorem Account.issued_of_window (account : Account history network)
    (issued : history.issued <+: all) {input : Address} {index : Nat} {slot : Slot}
    (there : (window history network input)[(all.take index).countP (·.goesTo input)]? =
      some slot) :
    history.issued[index]? = all[index]? ∧ history.issued.take index = all.take index := by
  have opened : (window history network input).length ≤
      history.issued.countP (·.goesTo input) := by
    rw [← List.length_map Slot.asOpened, account.windows, List.length_map,
      List.countP_eq_length_filter, ← account.opened_append, List.length_append]
    exact Nat.le_add_right _ _
  have inside := (List.getElem?_eq_some_iff.mp there).1
  have early : index < history.issued.length := by
    by_contra late
    have front : history.issued <+: all.take index :=
      List.prefix_take_iff.mpr ⟨issued, Nat.le_of_not_lt late⟩
    have few := front.sublist.countP_le (p := (·.goesTo input))
    omega
  obtain ⟨later, rfl⟩ := issued
  rw [List.getElem?_append_left early, List.take_append_of_le_length (Nat.le_of_lt early)]
  exact ⟨rfl, rfl⟩

/-- The value in the slot of a move, by the ranks of the move among all instructions. -/
theorem Account.produced_of_arrived (account : Account history network)
    (issued : history.issued <+: all) {source input : Address} {index : Nat} {value : Word}
    (isMove : all[index]? = some (.move source input)) (real : input.isNull = false)
    (there : (window history network input)[(all.take index).countP (·.goesTo input)]? =
      some (.arrived source value)) :
    (history.produced source)[(all.take index).countP (·.comesFrom source)]? = some value := by
  obtain ⟨sameMove, sameFront⟩ := account.issued_of_window issued there
  rw [← sameFront] at there ⊢
  exact account.value_of_arrived (sameMove.trans isMove) real there

/-! ## Values by the values taken -/

/-- A slot that holds a value, at the front of an input. -/
structure Front (network : Network) (input : Address) (slot : Slot) : Prop where
  head : (network.slots input).head? = some slot
  holds : ∃ value, slot.value? = some value

section Fronts

variable {input : Address} {slot slotOther : Slot}

theorem Front.isForValue (front : network.Front input slot) : slot.isForValue = true := by
  obtain ⟨value, holds⟩ := front.holds
  exact Slot.isForValue_of_value? holds

section SameTaken

variable (account : Account history network) (accountOther : Account other final)
  (issued : history.issued <+: all) (issuedOther : other.issued <+: all)
  (taken : (history.retiredAt input).countP Slot.isForValue =
    (other.retiredAt input).countP Slot.isForValue)

include account accountOther issued issuedOther taken

/-- Where as many values were taken, the next slot for a value is that of the same instruction. -/
theorem Account.place_unique (head : (network.slots input).head? = some slot)
    (headOther : (final.slots input).head? = some slotOther) (forValue : slot.isForValue = true)
    (forValueOther : slotOther.isForValue = true) :
    (history.retiredAt input).length = (other.retiredAt input).length ∧
      slot.asOpened = slotOther.asOpened := by
  obtain ⟨opened, counted⟩ := account.front issued head
  obtain ⟨openedOther, countedOther⟩ := accountOther.front issuedOther headOther
  have place : (history.retiredAt input).length = (other.retiredAt input).length := by
    refine index_unique opened openedOther ?_ ?_ (counted.trans (taken.trans countedOther.symm))
    · rwa [Slot.isForValue_asOpened]
    · rwa [Slot.isForValue_asOpened]
  rw [place, openedOther] at opened
  exact ⟨place, (Option.some.inj opened).symm⟩

/-- Where as many values were taken, the same value comes next. -/
theorem Front.unique
    (agree : ∀ output, history.produced output <+: other.produced output ∨
      other.produced output <+: history.produced output)
    (front : network.Front input slot) (frontOther : final.Front input slotOther) :
    slot = slotOther := by
  obtain ⟨place, kind⟩ := account.place_unique accountOther issued issuedOther taken front.head
    frontOther.head front.isForValue frontOther.isForValue
  obtain ⟨opened, -⟩ := account.front issued front.head
  have there := window_of_head? history front.head
  have thereOther := window_of_head? other frontOther.head
  obtain ⟨value, holds⟩ := front.holds
  obtain ⟨valueOther, holdsOther⟩ := frontOther.holds
  cases slot with
  | awaiting | marker => cases holds
  | constant =>
    cases slotOther with
    | constant => exact kind
    | awaiting | arrived | marker => cases kind
  | arrived sender =>
    cases slotOther with
    | awaiting | marker => cases holdsOther
    | constant => cases kind
    | arrived =>
      obtain rfl := Slot.awaiting.inj kind
      obtain ⟨index, isMove, ranked, real, -⟩ := Instruction.exists_move_of_slotsFor opened
      rw [← ranked] at there
      rw [← place, ← ranked] at thereOther
      have produced := account.produced_of_arrived issued isMove real there
      have producedOther := accountOther.produced_of_arrived issuedOther isMove real thereOther
      rw [getElem?_unique (agree sender) produced producedOther]

end SameTaken

/-- A completed network has opened the slot of every value that another has. -/
theorem Completed.slots_ne_nil (completed : final.Completed depth)
    (accountFinal : Account other final) (account : Account history network)
    (issued : history.issued <+: other.issued)
    (taken : (history.retiredAt input).countP Slot.isForValue =
      (other.retiredAt input).countP Slot.isForValue)
    (front : network.Front input slot) : final.slots input ≠ [] := by
  intro empty
  have whole : (window other final input).map Slot.asOpened =
      Instruction.slotsFor other.issued input := by
    rw [accountFinal.windows, completed.opened accountFinal, Instruction.slotsFor]
  have all : (Instruction.slotsFor other.issued input).countP Slot.isForValue =
      (other.retiredAt input).countP Slot.isForValue := by
    rw [← whole, window, empty, List.append_nil, List.countP_map]
    exact List.countP_congr fun slot _ => by simp
  obtain ⟨opened, counted⟩ := account.front issued front.head
  have fewer := countP_take_lt opened ((Slot.isForValue_asOpened slot).trans front.isForValue)
  rw [counted, taken, all] at fewer
  exact absurd fewer (Nat.lt_irrefl _)

/-- What a completed network lacks was produced elsewhere, for a destination that still waits. -/
theorem Completed.lacks (completed : final.Completed depth) (accountFinal : Account other final)
    (room : 0 < final.shared.interconnect.capacity) (account : Account history network)
    (issued : history.issued <+: other.issued)
    (taken : (history.retiredAt input).countP Slot.isForValue =
      (other.retiredAt input).countP Slot.isForValue)
    (front : network.Front input slot)
    (missing : (final.slots input).head?.bind Slot.value? = none) :
    ∃ source, final.destinations source ≠ [] ∧
      (other.produced source).length < (history.produced source).length := by
  obtain ⟨oldest, younger, slots⟩ := List.exists_cons_of_ne_nil
    (completed.slots_ne_nil accountFinal account issued taken front)
  have head : (final.slots input).head? = some oldest := by rw [slots, List.head?_cons]
  rw [head] at missing
  cases oldest with
  | arrived | constant => cases missing
  | marker => exact absurd head (completed.still.markers input)
  | awaiting source =>
    obtain ⟨place, kind⟩ := account.place_unique accountFinal issued List.prefix_rfl taken front.head
      head front.isForValue rfl
    obtain ⟨value, holds⟩ := front.holds
    cases slot with
    | awaiting | marker => cases holds
    | constant => cases kind
    | arrived =>
      obtain rfl := Slot.awaiting.inj kind
      obtain ⟨index, isMove, ranked, real, realSource⟩ :=
        Instruction.exists_move_of_slotsFor (accountFinal.front List.prefix_rfl head).1
      have there := window_of_head? history front.head
      have awaits := window_of_head? other head
      rw [place, ← ranked] at there
      rw [← ranked] at awaits
      obtain ⟨few, waits⟩ :=
        completed.length_produced_le accountFinal room isMove real realSource awaits
      have produced := account.produced_of_arrived issued isMove real there
      exact ⟨_, waits, Nat.lt_of_le_of_lt few (List.getElem?_eq_some_iff.mp produced).1⟩

end Fronts

end Network
end MoveMachine
