import MoveMachine.Proofs.Network.Basic

/-!
# Histories

What the events of a history say about one buffer, one manager or one route.
All readings are lists in the order of the events, so they grow at their end as
the history grows, and they are blind to events elsewhere.

The window of an input (`Network.window`) is the list of all slots ever opened
in it: those already retired, as they were then, followed by those still there.
Retiring a slot therefore leaves the window alone.
-/

set_option autoImplicit false

namespace MoveMachine

namespace Slot

/-- A slot as it was when it was opened. -/
def asOpened : Slot → Slot
  | .arrived sender _ => .awaiting sender
  | slot => slot

/-- Whether a slot belongs to a value from a sender, arrived or not. -/
def isFrom (slot : Slot) (sender : Address) : Bool := slot.asOpened == .awaiting sender

/-- Whether a slot still awaits its value. -/
def isOpen : Slot → Bool
  | .awaiting _ => true
  | _ => false

end Slot

namespace Network

/-- The events since a start, oldest first. -/
abbrev History := List Event

namespace Event

/-- The instruction that an event issues, if any. -/
@[simp] def issued : Event → List Instruction
  | .issue instruction => [instruction]
  | _ => []

/-- The instruction that a manager applies with an event, if any. -/
@[simp] def applied (post : UInt8 × Side) : Event → List Instruction
  | .apply manager instruction => if manager = post then [instruction] else []
  | _ => []

/-- The slots that an event retires, with their inputs. -/
@[simp] def retired : Event → List (Address × Slot)
  | .clear input => [(input, .marker)]
  | .fire unit taken _ => taken.map fun entry => (⟨unit, entry.1⟩, entry.2)
  | .fail unit taken => taken.map fun entry => (⟨unit, entry.1⟩, entry.2)
  | _ => []

/-- The value that an event gives to an output, if any. -/
@[simp] def produced (output : Address) : Event → List Word
  | .fire unit _ emitted => if ⟨unit, Bank.result⟩ = output then emitted.toList else []
  | _ => []

/-- The packet that an event sends, if any. -/
@[simp] def sent : Event → List Packet
  | .send packet => [packet]
  | _ => []

/-- The packet that arrives with an event, if any. -/
@[simp] def arrived : Event → List Packet
  | .arrive packet => [packet]
  | _ => []

/-- Whether an event is a failure of a kernel or comes from outside. -/
@[simp] def disturbs : Event → Bool
  | .fail .. | .write => true
  | _ => false

end Event

namespace History

variable (history : History)

/-- The instructions issued. -/
def issued : List Instruction := history.flatMap Event.issued

/-- The instructions applied by a manager. -/
def applied (post : UInt8 × Side) : List Instruction := history.flatMap (Event.applied post)

/-- The instructions that have opened a slot in an input. -/
def opened (input : Address) : List Instruction :=
  (history.applied (input.unit, .input)).filter (·.goesTo input)

/-- The instructions that have given a destination to an output. -/
def directed (output : Address) : List Instruction :=
  (history.applied (output.unit, .output)).filter (·.comesFrom output)

/-- The slots retired, with their inputs. -/
def retired : List (Address × Slot) := history.flatMap Event.retired

/-- The slots of an input that were retired. -/
def retiredAt (input : Address) : List Slot := (history.retired.filter (·.1 = input)).map (·.2)

/-- The values that have left the inputs of a unit, in the order in which they left. -/
def leavingUnit (unit : UInt8) : List Word :=
  (history.retired.filter (·.1.unit = unit)).filterMap (·.2.value?)

/-- The values that the kernel of a unit has given to an output. -/
def produced (output : Address) : List Word := history.flatMap (Event.produced output)

/-- The packets sent. -/
def sent : List Packet := history.flatMap Event.sent

/-- The packets that have left an output. -/
def sentFrom (output : Address) : List Packet := history.sent.filter (·.sender = output)

/-- The packets that have arrived. -/
def arrived : List Packet := history.flatMap Event.arrived

/-- The packets that have arrived on a route. -/
def arrivedOn (route : Address × Address) : List Packet :=
  history.arrived.filter (·.route = route)

/-- Whether no kernel has failed and nothing came from outside. -/
def Undisturbed : Prop := ∀ event ∈ history, event.disturbs = false

variable {history} (later : History) (event : Event)

@[simp] theorem issued_append : issued (history ++ later) = history.issued ++ later.issued := by
  simp [issued]

@[simp] theorem issued_singleton : issued [event] = event.issued := by simp [issued]

@[simp] theorem applied_append (post : UInt8 × Side) :
    applied (history ++ later) post = history.applied post ++ later.applied post := by
  simp [applied]

@[simp] theorem applied_singleton (post : UInt8 × Side) :
    applied [event] post = event.applied post := by
  simp [applied]

@[simp] theorem retired_append :
    retired (history ++ later) = history.retired ++ later.retired := by
  simp [retired]

@[simp] theorem retired_singleton : retired [event] = event.retired := by simp [retired]

@[simp] theorem retiredAt_append (input : Address) :
    retiredAt (history ++ later) input = history.retiredAt input ++ later.retiredAt input := by
  simp [retiredAt]

@[simp] theorem produced_append (output : Address) :
    produced (history ++ later) output = history.produced output ++ later.produced output := by
  simp [produced]

@[simp] theorem produced_singleton (output : Address) :
    produced [event] output = event.produced output := by
  simp [produced]

@[simp] theorem sent_append : sent (history ++ later) = history.sent ++ later.sent := by
  simp [sent]

@[simp] theorem sent_singleton : sent [event] = event.sent := by simp [sent]

@[simp] theorem arrived_append :
    arrived (history ++ later) = history.arrived ++ later.arrived := by
  simp [arrived]

@[simp] theorem arrived_singleton : arrived [event] = event.arrived := by simp [arrived]

theorem opened_append (input : Address) :
    opened (history ++ later) input = history.opened input ++ later.opened input := by
  simp [opened]

theorem directed_append (output : Address) :
    directed (history ++ later) output = history.directed output ++ later.directed output := by
  simp [directed]

theorem sentFrom_append (output : Address) :
    sentFrom (history ++ later) output = history.sentFrom output ++ later.sentFrom output := by
  simp [sentFrom]

theorem arrivedOn_append (route : Address × Address) :
    arrivedOn (history ++ later) route = history.arrivedOn route ++ later.arrivedOn route := by
  simp [arrivedOn]

theorem undisturbed_append :
    Undisturbed (history ++ later) ↔ history.Undisturbed ∧ later.Undisturbed := by
  simp [Undisturbed, or_imp, forall_and]

end History

/-! ## The parts of the machine -/

/-- The parts of a machine. -/
inductive Part where
  /-- What goes on in the program. -/
  | dispatch
  | manager (post : UInt8 × Side)
  | kernel (unit : UInt8)
  /-- What hands the packets of a unit over. -/
  | handing (unit : UInt8)
  | delivery
  /-- What is not part of the machine. -/
  | outside

/-- The part of the machine that an event is the work of. -/
def Event.part : Event → Part
  | .issue _ | .halt => .dispatch
  | .fetch post _ | .apply post _ => .manager post
  | .clear input => .kernel input.unit
  | .fire unit _ _ | .fail unit _ => .kernel unit
  | .send packet => .handing packet.sender.unit
  | .arrive _ => .delivery
  | .write => .outside

namespace History

variable {history later : History} {event : Event} {part : Part}

/-- Whether all events are the work of one part. -/
def Of (part : Part) (history : History) : Prop := ∀ event ∈ history, event.part = part

theorem of_nil (part : Part) : Of part [] := List.forall_mem_nil _

theorem of_singleton (event : Event) : Of event.part [event] :=
  List.forall_mem_singleton.mpr rfl

theorem Of.append (first : Of part history) (second : Of part later) :
    Of part (history ++ later) :=
  List.forall_mem_append.mpr ⟨first, second⟩

/-! A part leaves no trace in what is read of the others. -/

theorem Of.issued (of : Of part history) (apart : part ≠ .dispatch) : history.issued = [] := by
  refine List.flatMap_eq_nil_iff.mpr fun event member => ?_
  have isPart := of event member
  cases event <;> simp_all [Event.part]

theorem Of.applied {post : UInt8 × Side} (of : Of part history) (apart : part ≠ .manager post) :
    history.applied post = [] := by
  refine List.flatMap_eq_nil_iff.mpr fun event member => ?_
  have isPart := of event member
  cases event with
  | apply manager instruction =>
    refine if_neg fun same => apart ?_
    rw [← same]
    exact isPart.symm
  | issue | halt | fetch | clear | fire | fail | send | arrive | write => rfl

theorem Of.opened {input : Address} (of : Of part history)
    (apart : part ≠ .manager (input.unit, .input)) : history.opened input = [] := by
  rw [History.opened, of.applied apart, List.filter_nil]

theorem Of.directed {output : Address} (of : Of part history)
    (apart : part ≠ .manager (output.unit, .output)) : history.directed output = [] := by
  rw [History.directed, of.applied apart, List.filter_nil]

theorem Of.retiredAt {input : Address} (of : Of part history) (apart : part ≠ .kernel input.unit) :
    history.retiredAt input = [] := by
  have none : ∀ entry ∈ history.retired, entry.1 ≠ input := by
    intro entry member
    obtain ⟨event, isEvent, retires⟩ := List.mem_flatMap.mp member
    have isPart := of event isEvent
    rintro rfl
    cases event with
    | clear target =>
      obtain rfl := List.mem_singleton.mp retires
      exact apart isPart.symm
    | fire unit taken emitted | fail unit taken =>
      obtain ⟨port, -, rfl⟩ := List.mem_map.mp retires
      exact apart isPart.symm
    | issue | halt | fetch | apply | send | arrive | write => cases retires
  rw [History.retiredAt, List.map_eq_nil_iff, List.filter_eq_nil_iff]
  simpa using none

theorem Of.produced {output : Address} (of : Of part history)
    (apart : part ≠ .kernel output.unit) : history.produced output = [] := by
  refine List.flatMap_eq_nil_iff.mpr fun event member => ?_
  have isPart := of event member
  cases event with
  | fire unit taken emitted =>
    refine if_neg fun same => apart ?_
    rw [← same]
    exact isPart.symm
  | issue | halt | fetch | apply | clear | fail | send | arrive | write => rfl

theorem Of.sentFrom {output : Address} (of : Of part history)
    (apart : part ≠ .handing output.unit) : history.sentFrom output = [] := by
  refine List.filter_eq_nil_iff.mpr fun packet member => ?_
  obtain ⟨event, isEvent, sends⟩ := List.mem_flatMap.mp member
  have isPart := of event isEvent
  cases event with
  | send other =>
    obtain rfl := List.mem_singleton.mp sends
    simp only [decide_eq_true_eq]
    rintro rfl
    exact apart isPart.symm
  | issue | halt | fetch | apply | clear | fire | fail | arrive | write => cases sends

theorem Of.arrived (of : Of part history) (apart : part ≠ .delivery) : history.arrived = [] := by
  refine List.flatMap_eq_nil_iff.mpr fun event member => ?_
  have isPart := of event member
  cases event <;> simp_all [Event.part]

theorem Of.arrivedOn (of : Of part history) (apart : part ≠ .delivery)
    (route : Address × Address) : history.arrivedOn route = [] := by
  rw [History.arrivedOn, of.arrived apart, List.filter_nil]

end History

/-- All slots ever opened in an input: the retired ones, then those still there. -/
def window (history : History) (network : Network) (input : Address) : List Slot :=
  history.retiredAt input ++ network.slots input

/-! ## Retiring leaves windows alone -/

/-- The slots that a firing takes hold values. -/
theorem exists_value_of_holds {taken : List (UInt8 × Slot)} {words : List Word}
    (holds : taken.map (·.2.value?) = words.map some) {entry : UInt8 × Slot}
    (member : entry ∈ taken) : ∃ value, entry.2.value? = some value := by
  have filled : entry.2.value? ∈ words.map some := holds ▸ List.mem_map_of_mem member
  obtain ⟨word, -, isWord⟩ := List.mem_map.mp filled
  exact ⟨word, isWord.symm⟩

/-- Among entries with different keys there is just one with the key of a given one. -/
theorem filter_key_eq_singleton {α β : Type} [DecidableEq α] {entries : List (α × β)}
    (distinct : (entries.map (·.1)).Nodup) {entry : α × β} (member : entry ∈ entries) :
    entries.filter (·.1 = entry.1) = [entry] := by
  induction entries with
  | nil => simp at member
  | cons first rest ih =>
    obtain ⟨fresh, distinctRest⟩ := List.nodup_cons.mp distinct
    rcases List.mem_cons.mp member with rfl | member
    · have noOther : rest.filter (·.1 = entry.1) = [] := by
        refine List.filter_eq_nil_iff.mpr fun other inRest => ?_
        simp only [decide_eq_true_eq]
        intro same
        exact fresh (List.mem_map.mpr ⟨other, inRest, same⟩)
      simp [noOther]
    · have differs : first.1 ≠ entry.1 := fun same =>
        fresh (List.mem_map.mpr ⟨entry, member, same.symm⟩)
      simp [differs, ih distinctRest member]

/-- The slots that a firing takes from an input are those that the input loses. -/
theorem taken_append_retire {network : Network} {unit : UInt8} {taken : List (UInt8 × Slot)}
    (distinct : (taken.map (·.1)).Nodup)
    (heads : ∀ entry ∈ taken, (network.slots ⟨unit, entry.1⟩).head? = some entry.2)
    (input : Address) :
    ((taken.map fun entry => ((⟨unit, entry.1⟩ : Address), entry.2)).filter
        (·.1 = input)).map (·.2) ++ network.retire unit (taken.map (·.1)) input =
      network.slots input := by
  by_cases concerned : input.unit = unit ∧ input.buffer ∈ taken.map (·.1)
  · obtain ⟨rfl, isPort⟩ := concerned
    obtain ⟨entry, member, atPort⟩ := List.mem_map.mp isPort
    have only :
        taken.filter (fun other => (⟨input.unit, other.1⟩ : Address) = input) = [entry] := by
      rw [← filter_key_eq_singleton distinct member]
      refine List.filter_congr fun other _ => ?_
      rw [atPort]
      obtain ⟨number, buffer⟩ := input
      simp
    have head : (network.slots input).head? = some entry.2 := by
      rw [← heads entry member, atPort]
    obtain ⟨tail, slots⟩ := List.head?_eq_some_iff.mp head
    have split : (fun other : Address × Slot => decide (other.1 = input)) ∘
        (fun other : UInt8 × Slot => ((⟨input.unit, other.1⟩ : Address), other.2)) =
        fun other => decide ((⟨input.unit, other.1⟩ : Address) = input) := rfl
    rw [List.filter_map, split, only]
    simp [retire, isPort, slots]
  · have none : (taken.map fun entry => ((⟨unit, entry.1⟩ : Address), entry.2)).filter
        (·.1 = input) = [] := by
      refine List.filter_eq_nil_iff.mpr fun other member => ?_
      obtain ⟨entry, inTaken, rfl⟩ := List.mem_map.mp member
      simp only [decide_eq_true_eq]
      rintro rfl
      exact concerned ⟨rfl, List.mem_map_of_mem inTaken⟩
    rw [none, retire, if_neg concerned]
    rfl

end Network
end MoveMachine
