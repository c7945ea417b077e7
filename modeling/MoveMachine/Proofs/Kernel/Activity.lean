import MoveMachine.Proofs.Network.Account
import MoveMachine.Proofs.ReorderWindow
import Mathlib.Data.List.Nodup
import Mathlib.Data.List.TakeWhile

/-!
# What happens around a kernel

Between the steps of a kernel other parts of the machine act on its buffers: slots are
opened, values arrive, destinations are given, and packets leave. What happens from a
start on is a history (`Workspace.Evolves`), and from a history one can say which slots
an input has ever had, with the values that came for them (`Workspace.History.window`).

Nobody but the kernel retires slots or produces values. So what the kernel has taken from
an input are the values in the part of the window that is no longer there
(`Workspace.History.consumed`), and what it has given to its output is what has left the
output and what is still there (`Workspace.History.pushed`). Both grow only when the
kernel makes a step (`Workspace.Happens.balanced`), and then by what the step takes out
(`Bank.Yields`) and puts in.
-/

set_option autoImplicit false

namespace MoveMachine

/-- Slots that await nothing hold values, except for the markers. -/
theorem Slot.map_filterMap_value? {slots : List Slot}
    (closed : ∀ slot ∈ slots, slot.isOpen = false) :
    (slots.filterMap value?).map some = (slots.filter (!·.isMarker)).map value? := by
  induction slots with
  | nil => rfl
  | cons slot later ih =>
    obtain ⟨closedHere, closedLater⟩ := List.forall_mem_cons.mp closed
    have rest := ih closedLater
    cases slot with
    | awaiting sender => cases closedHere
    | marker =>
      rw [List.filterMap_cons_none rfl, List.filter_cons_of_neg (by decide)]
      exact rest
    | arrived | constant => simpa [value?, isMarker] using rest

/-- The slot that an effect opens in an input, if it does. -/
def Effect.opened (input : UInt8) : Effect → List Slot
  | .register buffer source =>
    if buffer = input then [.ofRegistration source.registration] else []
  | .write buffer value => if buffer = input then [.constant value] else []
  | .direct .. => []

namespace Workspace

/-! ## Histories -/

/-- What can happen to a kernel and to what it works on. -/
inductive Event where
  /-- The kernel makes a step. -/
  | step (report : Except Fault Bool)
  /-- An effect is carried out on the buffers. -/
  | apply (effect : Effect)
  /-- A value arrives at an input. -/
  | arrive (input : UInt8) (sender : Address) (value : Word)
  /-- A packet leaves an output. -/
  | leave (output : UInt8) (packet : Packet)
  /-- Something else changes the memory or the results. -/
  | elsewhere

/-- How an event changes a workspace. Operations that fail change nothing and are no events. -/
inductive Happens (unit : UInt8) (work : Workspace) : Event → Workspace → Prop where
  | step : Happens unit work (.step (Kernel.step unit work).report) (Kernel.step unit work).state
  | apply {effect : Effect} {bank : Bank} (applies : work.buffers.apply effect = .ok bank) :
      Happens unit work (.apply effect) { work with buffers := bank }
  | arrive {input : UInt8} {sender : Address} {value : Word} {bank : Bank}
      (fills : work.buffers.alterInput input (·.fill sender value) = .ok bank) :
      Happens unit work (.arrive input sender value) { work with buffers := bank }
  | leave {output : UInt8} {buffer rest : OutputBuffer} {packet : Packet}
      (found : work.buffers.output? output = some buffer)
      (pops : buffer.pop? (work.buffers.address output) = some (packet, rest)) :
      Happens unit work (.leave output packet)
        { work with buffers := work.buffers.setOutput output rest }
  | elsewhere {memory : Memory} {results : Array Word} (size : memory.size = work.memory.size) :
      Happens unit work .elsewhere { work with memory, results }

/-- The events since a start, oldest first. -/
abbrev History := List Event

/-- Whether a history leads from a start to a workspace. -/
inductive Evolves (unit : UInt8) (start : Workspace) : History → Workspace → Prop where
  | start : Evolves unit start [] start
  | next {history : History} {work after : Workspace} {event : Event}
      (earlier : Evolves unit start history work) (happens : Happens unit work event after) :
      Evolves unit start (history ++ [event]) after

namespace Event

/-- The slot that an event opens in an input, if it does. -/
@[simp] def opened (input : UInt8) : Event → List Slot
  | .apply effect => effect.opened input
  | _ => []

/-- The value from a sender that arrives at an input with an event, if one does. -/
@[simp] def arrived (input : UInt8) (sender : Address) : Event → List Word
  | .arrive place origin value => if place = input ∧ origin = sender then [value] else []
  | _ => []

/-- The value that leaves the result output with an event, if one does. -/
@[simp] def left : Event → List Word
  | .leave output packet => if output = Bank.result then [packet.value] else []
  | _ => []

end Event

namespace History

variable (history : History)

/-- Whether no step of the kernel has ended in a fault. -/
def Faultless : Prop := ∀ fault, Event.step (.error fault) ∉ history

/-- Whether nothing but the kernel has changed the memory. -/
def Undisturbed : Prop := Event.elsewhere ∉ history

/-- The slots opened in an input, as they were then. -/
def opened (input : UInt8) : List Slot := history.flatMap (Event.opened input)

/-- The values from a sender that have arrived at an input. -/
def arrived (input : UInt8) (sender : Address) : List Word :=
  history.flatMap (Event.arrived input sender)

/-- The values that have left the output for results. -/
def left : List Word := history.flatMap Event.left

/-- All slots that an input has ever had, with the values that came for them. -/
def window (input : UInt8) : List Slot :=
  InputBuffer.settle (history.arrived input) (history.opened input)

/-- The slots of an input that are no longer there. -/
def retired (bank : Bank) (input : UInt8) : List Slot :=
  (history.window input).take ((history.window input).length - (bank.slotsAt input).length)

/-- The values that the kernel has taken from an input. -/
def consumed (bank : Bank) (input : UInt8) : List Word :=
  (history.retired bank input).filterMap Slot.value?

/-- The values that the kernel has given to the output for results. -/
def pushed (bank : Bank) : List Word := history.left ++ bank.valuesAt Bank.result

/-- Whether the slots that are no longer in the inputs are the oldest ones, and the values that the
kernel has taken are theirs, in order, markers apart. -/
def TakesInOrder (bank : Bank) : Prop :=
  ∀ input, history.retired bank input ++ bank.slotsAt input = history.window input ∧
    (history.consumed bank input).map some <+:
      ((history.window input).filter (!·.isMarker)).map Slot.value?

variable {history} (event : Event)

theorem opened_append (input : UInt8) :
    opened (history ++ [event]) input = history.opened input ++ event.opened input := by
  simp [opened]

theorem arrived_append (input : UInt8) (sender : Address) :
    arrived (history ++ [event]) input sender =
      history.arrived input sender ++ event.arrived input sender := by
  simp [arrived]

theorem left_append : left (history ++ [event]) = history.left ++ event.left := by simp [left]

/-- An event elsewhere leaves the window of an input alone. -/
theorem window_append {event : Event} {input : UInt8} (opensNothing : event.opened input = [])
    (bringsNothing : ∀ sender, event.arrived input sender = []) :
    window (history ++ [event]) input = history.window input := by
  have arrivedSame : arrived (history ++ [event]) input = history.arrived input := by
    funext sender
    rw [arrived_append, bringsNothing, List.append_nil]
  rw [window, window, arrivedSame, opened_append, opensNothing, List.append_nil]

theorem Faultless.of_append {event : Event} (faultless : Faultless (history ++ [event])) :
    history.Faultless :=
  fun fault member => faultless fault (List.mem_append_left _ member)

theorem Undisturbed.of_append {event : Event} (undisturbed : Undisturbed (history ++ [event])) :
    history.Undisturbed :=
  fun member => undisturbed (List.mem_append_left _ member)

end History

end Workspace

/-! ## Taking values out -/

namespace Bank

/-- Values are taken from the inputs of a bank, together with the markers in front of them. -/
def Yields (bank : Bank) (yield : UInt8 → List Word) (after : Bank) : Prop :=
  ∀ input, ∃ lost, bank.slotsAt input = lost ++ after.slotsAt input ∧
    (∀ slot ∈ lost, slot.isOpen = false) ∧ lost.filterMap Slot.value? = yield input

variable {bank middle after : Bank}

theorem Yields.nothing (inputs : after.inputs = bank.inputs) : bank.Yields (fun _ => []) after := by
  intro input
  refine ⟨[], ?_, nofun, rfl⟩
  rw [slotsAt_congr inputs, List.nil_append]

theorem Yields.trans {first second : UInt8 → List Word} (before : bank.Yields first middle)
    (later : middle.Yields second after) :
    bank.Yields (fun input => first input ++ second input) after := by
  intro input
  obtain ⟨lost, slots, closed, values⟩ := before input
  obtain ⟨more, slotsLater, closedLater, valuesLater⟩ := later input
  refine ⟨lost ++ more, ?_, ?_, ?_⟩
  · rw [slots, slotsLater, List.append_assoc]
  · intro slot member
    rcases List.mem_append.mp member with early | late
    · exact closed slot early
    · exact closedLater slot late
  · rw [List.filterMap_append, values, valuesLater]

/-- Retiring markers takes no value. -/
theorem yields_dropMarkers (bank : Bank) : bank.Yields (fun _ => []) bank.dropMarkers := by
  intro input
  have slots : bank.dropMarkers.slotsAt input =
      (bank.slotsAt input).dropWhile Slot.isMarker := by
    cases found : bank.inputs[input.toNat]? <;>
      simp [slotsAt, input?, dropMarkers, found, InputBuffer.dropMarkers]
  have onlyMarkers : ∀ slot ∈ (bank.slotsAt input).takeWhile Slot.isMarker, slot = .marker := by
    intro slot member
    have isMarker := List.mem_takeWhile_imp member
    cases slot with
    | marker => rfl
    | awaiting | arrived | constant => cases isMarker
  refine ⟨(bank.slotsAt input).takeWhile Slot.isMarker, ?_, ?_, ?_⟩
  · rw [slots, List.takeWhile_append_dropWhile]
  · intro slot member
    rw [onlyMarkers slot member]
    rfl
  · rw [List.filterMap_eq_nil_iff]
    intro slot member
    rw [onlyMarkers slot member]
    rfl

/-- The words taken from an input, when one was taken from each of some inputs. -/
def wordsFor (ports : List UInt8) (words : List Word) (input : UInt8) : List Word :=
  ((ports.zip words).filter (·.1 = input)).map (·.2)

/-- The slots of an input are the one that is taken from it, if one is, and those left. -/
theorem Retires.slotsAt_eq {taken : List (UInt8 × Slot)} (retires : bank.Retires taken after)
    (distinct : (taken.map (·.1)).Nodup) (input : UInt8) :
    bank.slotsAt input = (taken.filter (·.1 = input)).map (·.2) ++ after.slotsAt input := by
  rw [retires.slotsAt]
  by_cases isTaken : input ∈ taken.map (·.1)
  · obtain ⟨entry, member, rfl⟩ := List.mem_map.mp isTaken
    obtain ⟨younger, slots⟩ := List.head?_eq_some_iff.mp (retires.heads entry member)
    obtain ⟨before, later, rfl⟩ := List.append_of_mem member
    have apart {other : UInt8 × Slot} (elsewhere : other ∈ before ∨ other ∈ later) :
        other.1 ≠ entry.1 := by
      rw [List.map_append, List.map_cons, List.nodup_middle, List.nodup_cons, List.mem_append]
        at distinct
      intro same
      apply distinct.1
      rw [← same]
      exact elsewhere.imp List.mem_map_of_mem List.mem_map_of_mem
    have noneBefore : before.filter (·.1 = entry.1) = [] := by
      rw [List.filter_eq_nil_iff]
      intro other isBefore
      simpa using apart (.inl isBefore)
    have noneLater : later.filter (·.1 = entry.1) = [] := by
      rw [List.filter_eq_nil_iff]
      intro other isLater
      simpa using apart (.inr isLater)
    rw [if_pos isTaken, List.filter_append, noneBefore, List.filter_cons_of_pos (by simp),
      noneLater, slots]
    rfl
  · have noneTaken : taken.filter (·.1 = input) = [] := by
      rw [List.filter_eq_nil_iff]
      intro entry member
      have differs : entry.1 ≠ input := fun same => isTaken (List.mem_map.mpr ⟨entry, member, same⟩)
      simpa using differs
    rw [if_neg isTaken, noneTaken]
    rfl

/-- The values of taken slots, one from each of some inputs. -/
theorem filterMap_value?_taken {taken : List (UInt8 × Slot)} {words : List Word}
    (holds : taken.map (·.2.value?) = words.map some) (input : UInt8) :
    ((taken.filter (·.1 = input)).map (·.2)).filterMap Slot.value? =
      wordsFor (taken.map (·.1)) words input := by
  induction taken generalizing words with
  | nil =>
    cases words with
    | nil => rfl
    | cons word words => cases holds
  | cons entry taken ih =>
    cases words with
    | nil => cases holds
    | cons word words =>
      obtain ⟨here, later⟩ := List.cons.inj holds
      have rest := ih later
      by_cases same : entry.1 = input
      · simp [same, here, rest, wordsFor]
      · simp [same, rest, wordsFor]

/-- Taking values takes those of the slots. -/
theorem Retires.yields {taken : List (UInt8 × Slot)} {words : List Word}
    (retires : bank.Retires taken after) (distinct : (taken.map (·.1)).Nodup)
    (holds : taken.map (·.2.value?) = words.map some) :
    bank.Yields (wordsFor (taken.map (·.1)) words) after := by
  intro input
  refine ⟨(taken.filter (·.1 = input)).map (·.2), retires.slotsAt_eq distinct input, ?_,
    filterMap_value?_taken holds input⟩
  intro slot member
  obtain ⟨entry, isTaken, rfl⟩ := List.mem_map.mp member
  have held : entry.2.value? ∈ words.map some := by
    rw [← holds]
    exact List.mem_map_of_mem (List.mem_filter.mp isTaken).1
  obtain ⟨word, -, isWord⟩ := List.mem_map.mp held
  exact Slot.isOpen_of_value? isWord.symm

/-! ## Changing one buffer -/

/-- What a function is applied to in a result was there before. -/
theorem exists_of_map_eq_ok {Value Image : Type} {result : Except Fault Value}
    {f : Value → Image} {image : Image} (maps : result.map f = .ok image) :
    ∃ value, result = .ok value ∧ image = f value := by
  cases result with
  | error fault => cases maps
  | ok value => exact ⟨value, rfl, (Except.ok.inj maps).symm⟩

theorem alterInput_spec {index : UInt8} {alter : InputBuffer → Except Fault InputBuffer}
    (alters : bank.alterInput index alter = .ok after) :
    ∃ buffer altered, bank.input? index = some buffer ∧ alter buffer = .ok altered ∧
      after = bank.setInput index altered := by
  rw [alterInput] at alters
  split at alters
  · cases alters
  · rename_i buffer found
    obtain ⟨altered, isAltered, rfl⟩ := exists_of_map_eq_ok alters
    exact ⟨buffer, altered, found, isAltered, rfl⟩

theorem alterOutput_spec {index : UInt8} {alter : OutputBuffer → Except Fault OutputBuffer}
    (alters : bank.alterOutput index alter = .ok after) :
    ∃ buffer altered, bank.output? index = some buffer ∧ alter buffer = .ok altered ∧
      after = bank.setOutput index altered := by
  rw [alterOutput] at alters
  split at alters
  · cases alters
  · rename_i buffer found
    obtain ⟨altered, isAltered, rfl⟩ := exists_of_map_eq_ok alters
    exact ⟨buffer, altered, found, isAltered, rfl⟩

theorem openSlot_spec {index : UInt8} {slot : Slot}
    (opens : bank.alterInput index (·.openSlot slot) = .ok after) :
    ∃ buffer, bank.input? index = some buffer ∧
      after = bank.setInput index { buffer with slots := buffer.slots ++ [slot] } := by
  obtain ⟨buffer, opened, found, isOpened, rfl⟩ := alterInput_spec opens
  rw [InputBuffer.openSlot] at isOpened
  split at isOpened
  · cases isOpened
  · obtain rfl := Except.ok.inj isOpened
    exact ⟨buffer, found, rfl⟩

end Bank

namespace Workspace

variable {history : History} {bank after : Bank}

/-! ## The account of a history -/

/-- A history accounts for the inputs of a bank. -/
structure Balanced (history : History) (bank : Bank) : Prop where
  /-- Every value that arrived has a slot. -/
  served : ∀ input sender,
    (history.arrived input sender).length ≤ (history.opened input).count (.awaiting sender)
  /-- What is no longer there awaits nothing, and the rest of the window is still there. -/
  window : ∀ input, ∃ gone, history.window input = gone ++ bank.slotsAt input ∧
    ∀ slot ∈ gone, slot.isOpen = false

/-- What has gone of a window is retired. -/
theorem History.retired_eq {input : UInt8} {gone : List Slot}
    (split : history.window input = gone ++ bank.slotsAt input) :
    history.retired bank input = gone := by
  rw [retired, split, List.length_append, Nat.add_sub_cancel, List.take_left]

namespace Balanced

variable (balanced : Balanced history bank) (input : UInt8)
include balanced

/-- The window consists of what is retired and what is still there. -/
theorem retired_append :
    history.retired bank input ++ bank.slotsAt input = history.window input := by
  obtain ⟨gone, split, -⟩ := balanced.window input
  rw [History.retired_eq split, split]

theorem isOpen_of_retired : ∀ slot ∈ history.retired bank input, slot.isOpen = false := by
  obtain ⟨gone, split, closed⟩ := balanced.window input
  rw [History.retired_eq split]
  exact closed

omit input in
/-- The values taken from the inputs are those of their slots other than markers, in order. -/
theorem takesInOrder : history.TakesInOrder bank := by
  intro input
  refine ⟨balanced.retired_append input, ?_⟩
  have values := Slot.map_filterMap_value? (balanced.isOpen_of_retired input)
  rw [History.consumed, values, ← balanced.retired_append, List.filter_append, List.map_append]
  exact List.prefix_append _ _

/-- What is taken out of a bank that is accounted for is consumed. -/
theorem yields {yield : UInt8 → List Word} (yields : bank.Yields yield after) :
    Balanced history after ∧
      ∀ input, history.consumed after input = history.consumed bank input ++ yield input := by
  have split (input : UInt8) : ∃ gone lost, history.window input = gone ++ bank.slotsAt input ∧
      history.window input = (gone ++ lost) ++ after.slotsAt input ∧
      (∀ slot ∈ gone ++ lost, slot.isOpen = false) ∧ lost.filterMap Slot.value? = yield input := by
    obtain ⟨gone, window, closed⟩ := balanced.window input
    obtain ⟨lost, slots, closedToo, values⟩ := yields input
    refine ⟨gone, lost, window, by rw [window, slots, List.append_assoc], ?_, values⟩
    intro slot member
    rcases List.mem_append.mp member with early | late
    · exact closed slot early
    · exact closedToo slot late
  constructor
  · refine ⟨balanced.served, fun input => ?_⟩
    obtain ⟨gone, lost, -, window, closed, -⟩ := split input
    exact ⟨gone ++ lost, window, closed⟩
  · intro input
    obtain ⟨gone, lost, before, window, -, values⟩ := split input
    rw [History.consumed, History.consumed, History.retired_eq before, History.retired_eq window,
      List.filterMap_append, values]

end Balanced

/-! ## Events other than steps -/

section Events

variable {event : Event}

/-- An event that retires nothing consumes nothing. -/
theorem Balanced.extend (balanced : Balanced history bank)
    (served : ∀ input sender, (History.arrived (history ++ [event]) input sender).length ≤
      (History.opened (history ++ [event]) input).count (.awaiting sender))
    (window : ∀ input gone, history.window input = gone ++ bank.slotsAt input →
      (∀ slot ∈ gone, slot.isOpen = false) →
        History.window (history ++ [event]) input = gone ++ after.slotsAt input) :
    Balanced (history ++ [event]) after ∧
      History.consumed (history ++ [event]) after = history.consumed bank := by
  constructor
  · refine ⟨served, fun input => ?_⟩
    obtain ⟨gone, split, closed⟩ := balanced.window input
    exact ⟨gone, window input gone split closed, closed⟩
  · funext input
    obtain ⟨gone, split, closed⟩ := balanced.window input
    rw [History.consumed, History.consumed, History.retired_eq split,
      History.retired_eq (window input gone split closed)]

/-- An event that has nothing to do with the inputs leaves their account alone. -/
theorem Balanced.unconcerned (balanced : Balanced history bank)
    (opensNothing : ∀ input, event.opened input = [])
    (bringsNothing : ∀ input sender, event.arrived input sender = [])
    (slots : after.slotsAt = bank.slotsAt) :
    Balanced (history ++ [event]) after ∧
      History.consumed (history ++ [event]) after = history.consumed bank := by
  apply balanced.extend
  · intro input sender
    rw [History.arrived_append, History.opened_append, bringsNothing, opensNothing,
      List.append_nil, List.append_nil]
    exact balanced.served input sender
  · intro input gone split closed
    rw [History.window_append (opensNothing input) (bringsNothing input), slots, split]

/-- A slot that is opened stands behind all others in the window of its input. -/
theorem Balanced.openSlot {index : UInt8} {slot : Slot} {buffer : InputBuffer}
    (balanced : Balanced history bank) (found : bank.input? index = some buffer)
    (opens : ∀ input, event.opened input = if index = input then [slot] else [])
    (bringsNothing : ∀ input sender, event.arrived input sender = []) :
    Balanced (history ++ [event])
        (bank.setInput index { buffer with slots := buffer.slots ++ [slot] }) ∧
      History.consumed (history ++ [event])
          (bank.setInput index { buffer with slots := buffer.slots ++ [slot] }) =
        history.consumed bank := by
  apply balanced.extend
  · intro input sender
    rw [History.arrived_append, History.opened_append, bringsNothing, List.append_nil,
      List.count_append]
    exact Nat.le_add_right_of_le (balanced.served input sender)
  · intro input gone split closed
    rw [Bank.slotsAt_setInput found, Function.update_apply]
    by_cases here : input = index
    · subst here
      have arrivedSame : History.arrived (history ++ [event]) input = history.arrived input := by
        funext sender
        rw [History.arrived_append, bringsNothing, List.append_nil]
      rw [if_pos rfl, History.window, arrivedSame, History.opened_append, opens, if_pos rfl,
        InputBuffer.settle_append (balanced.served input), ← History.window, split,
        Bank.slotsAt_of_input? found, List.append_assoc]
    · have opensNothing : event.opened input = [] := by
        rw [opens, if_neg (Ne.symm here)]
      rw [if_neg here, History.window_append opensNothing (bringsNothing input), split]

/-- A value that arrives fills a slot that is still there. -/
theorem Balanced.arrive {index : UInt8} {sender : Address} {value : Word} {buffer : InputBuffer}
    {filled : List Slot} (balanced : Balanced history bank)
    (found : bank.input? index = some buffer)
    (fills : InputBuffer.fillOldest sender value buffer.slots = some filled) :
    Balanced (history ++ [.arrive index sender value])
        (bank.setInput index { buffer with slots := filled }) ∧
      History.consumed (history ++ [.arrive index sender value])
          (bank.setInput index { buffer with slots := filled }) = history.consumed bank := by
  have opensNothing (input : UInt8) : (Event.arrive index sender value).opened input = [] := rfl
  have arrivals : History.arrived (history ++ [.arrive index sender value]) index =
      Function.update (history.arrived index) sender (history.arrived index sender ++ [value]) := by
    funext origin
    rw [History.arrived_append, Function.update_apply]
    by_cases same : origin = sender
    · simp [same]
    · simp [same, Ne.symm same]
  have elsewhere {input : UInt8} (other : input ≠ index) (origin : Address) :
      (Event.arrive index sender value).arrived input origin = [] := by
    simp [Ne.symm other]
  -- what has gone awaits nothing, so the value passes it by
  have fillsWindow {gone : List Slot} (split : history.window index = gone ++ bank.slotsAt index)
      (closed : ∀ slot ∈ gone, slot.isOpen = false) :
      InputBuffer.fillOldest sender value (history.window index) = some (gone ++ filled) := by
    have absent : Slot.awaiting sender ∉ gone := by
      intro member
      cases closed _ member
    rw [split, InputBuffer.fillOldest_append absent, Bank.slotsAt_of_input? found, fills]
    rfl
  have settles {gone : List Slot} (split : history.window index = gone ++ bank.slotsAt index)
      (closed : ∀ slot ∈ gone, slot.isOpen = false) :
      (history.arrived index sender).length < (history.opened index).count (.awaiting sender) ∧
        History.window (history ++ [.arrive index sender value]) index = gone ++ filled := by
    have fillsHere := fillsWindow split closed
    rw [History.window, InputBuffer.fillOldest_settle] at fillsHere
    split at fillsHere
    · rename_i expected
      refine ⟨expected, ?_⟩
      rw [History.window, arrivals, History.opened_append, opensNothing, List.append_nil]
      exact Option.some.inj fillsHere
    · cases fillsHere
  apply balanced.extend
  · intro input origin
    rw [History.opened_append, opensNothing, List.append_nil]
    by_cases here : input = index
    · subst here
      rw [arrivals, Function.update_apply]
      split
      · rename_i same
        obtain ⟨gone, window, closed⟩ := balanced.window input
        rw [List.length_append, same]
        exact (settles window closed).1
      · exact balanced.served input origin
    · rw [History.arrived_append, elsewhere here, List.append_nil]
      exact balanced.served input origin
  · intro input gone split closed
    rw [Bank.slotsAt_setInput found, Function.update_apply]
    by_cases here : input = index
    · subst here
      rw [if_pos rfl]
      exact (settles split closed).2
    · rw [if_neg here, History.window_append (opensNothing input) (elsewhere here), split]

/-- What a packet takes along has been in the output. -/
theorem History.pushed_leave {index : UInt8} {buffer rest : OutputBuffer} {packet : Packet}
    (history : History) (found : bank.output? index = some buffer)
    (pops : buffer.pop? (bank.address index) = some (packet, rest)) :
    pushed (history ++ [.leave index packet]) (bank.setOutput index rest) =
      history.pushed bank := by
  rw [OutputBuffer.pop?] at pops
  split at pops
  · rename_i destination destinations value values isDestinations isValues
    obtain ⟨rfl, rfl⟩ := Prod.mk.inj (Option.some.inj pops)
    rw [pushed, pushed, left_append, Bank.valuesAt_setOutput found, Function.update_apply]
    by_cases isResult : Bank.result = index
    · subst isResult
      simp [Bank.valuesAt_of_output? found, isValues]
    · simp [isResult, Ne.symm isResult]
  · cases pops

theorem History.pushed_append {event : Event} (history : History) (nothingLeaves : event.left = [])
    (values : after.valuesAt = bank.valuesAt) :
    pushed (history ++ [event]) after = history.pushed bank := by
  rw [pushed, pushed, left_append, nothingLeaves, List.append_nil, values]

/-- Only the steps of the kernel push. -/
theorem Happens.pushed {unit : UInt8} {work after : Workspace}
    (happens : Happens unit work event after) (noStep : ∀ report, event ≠ .step report)
    (history : History) :
    History.pushed (history ++ [event]) after.buffers = history.pushed work.buffers ∧
      after.kernel = work.kernel := by
  cases happens with
  | step => exact absurd rfl (noStep _)
  | @apply effect bank applies =>
    cases effect with
    | register | write =>
      obtain ⟨buffer, found, rfl⟩ := Bank.openSlot_spec applies
      exact ⟨history.pushed_append rfl rfl, rfl⟩
    | direct index destination =>
      obtain ⟨buffer, directed, found, isDirected, rfl⟩ := Bank.alterOutput_spec applies
      rw [OutputBuffer.pushDestination] at isDirected
      split at isDirected
      · cases isDirected
      · obtain rfl := Except.ok.inj isDirected
        refine ⟨history.pushed_append rfl ?_, rfl⟩
        rw [Bank.valuesAt_setOutput found, ← Bank.valuesAt_of_output? found,
          Function.update_eq_self]
  | arrive fills =>
    obtain ⟨buffer, filled, found, isFilled, rfl⟩ := Bank.alterInput_spec fills
    exact ⟨history.pushed_append rfl rfl, rfl⟩
  | leave found pops => exact ⟨history.pushed_leave found pops, rfl⟩
  | elsewhere size => exact ⟨history.pushed_append rfl rfl, rfl⟩

/-- Only the steps of the kernel consume and push. -/
theorem Happens.balanced {unit : UInt8} {work after : Workspace}
    (happens : Happens unit work event after) (noStep : ∀ report, event ≠ .step report)
    (balanced : Balanced history work.buffers) :
    (Balanced (history ++ [event]) after.buffers ∧
      History.consumed (history ++ [event]) after.buffers = history.consumed work.buffers) ∧
    History.pushed (history ++ [event]) after.buffers = history.pushed work.buffers ∧
    after.kernel = work.kernel := by
  refine ⟨?_, happens.pushed noStep history⟩
  cases happens with
  | step => exact absurd rfl (noStep _)
  | @apply effect bank applies =>
    cases effect with
    | register | write =>
      obtain ⟨buffer, found, rfl⟩ := Bank.openSlot_spec applies
      exact balanced.openSlot found (fun _ => rfl) (fun _ _ => rfl)
    | direct index destination =>
      obtain ⟨buffer, directed, found, isDirected, rfl⟩ := Bank.alterOutput_spec applies
      exact balanced.unconcerned (fun _ => rfl) (fun _ _ => rfl) rfl
  | @arrive index sender value bank fills =>
    obtain ⟨buffer, filled, found, isFilled, rfl⟩ := Bank.alterInput_spec fills
    rw [InputBuffer.fill] at isFilled
    split at isFilled
    · rename_i slots isSlots
      obtain rfl := Except.ok.inj isFilled
      exact balanced.arrive found isSlots
    · cases isFilled
  | leave | elsewhere => exact balanced.unconcerned (fun _ => rfl) (fun _ _ => rfl) rfl

/-- A step does not matter to what can be said from the history alone. -/
theorem Balanced.step (balanced : Balanced history bank) (report : Except Fault Bool) :
    Balanced (history ++ [.step report]) bank ∧
      History.consumed (history ++ [.step report]) bank = history.consumed bank := by
  have slots : bank.slotsAt = bank.slotsAt := rfl
  have opensNothing (input : UInt8) : (Event.step report).opened input = [] := rfl
  have bringsNothing (input : UInt8) (sender : Address) :
      (Event.step report).arrived input sender = [] := rfl
  exact balanced.unconcerned opensNothing bringsNothing slots

end Events

end Workspace
end MoveMachine
