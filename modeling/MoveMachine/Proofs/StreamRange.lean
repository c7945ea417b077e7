import MoveMachine.Proofs.Kernel.Running

/-!
# Streams move exactly their range

A unit that streams out of memory emits the words of a range one after the other, and a
unit that streams into memory writes what reaches it to consecutive words. The address of
a word is the offset of the unit, which may be any number of 64 bits, plus the number of
words done. Nobody checks that this sum has 64 bits as well.

It always has (`Kernel.Inside.lt_size`): the first word may lie anywhere, but as soon as a
word is done, all words done lie in memory, whose size has 64 bits. A step that ends in a
fault does nothing, so the next one tries the same address again and the sum does not
grow.

What is said of all words of a stream refers to the workspaces in which the steps were
made, since others may change the memory in between (`Workspace.Passes`). One step is
described by the word that it moves, if it moves one (`Kernel.step_streamOut`,
`Kernel.step_streamIn`), and the streams follow by induction over the history
(`Workspace.Passes.emits`, `Workspace.Passes.writes`, `Workspace.streams_move_range`).
-/

set_option autoImplicit false

namespace MoveMachine

namespace Kernel

/-- So many words from an offset on lie in a memory of a size, if they are any. -/
def Inside (offset done size : Nat) : Prop := done = 0 ∨ offset + done ≤ size

namespace Inside

variable {offset done size : Nat}

theorem start : Inside offset 0 size := .inl rfl

/-- The words done so far stay in memory when one more of them is done. -/
theorem next (within : offset + done < size) : Inside offset (done + 1) size := .inr within

/-- No address of a stream needs more than 64 bits. -/
theorem lt_size (inside : Inside offset done size) (offsetFits : offset < UInt64.size)
    (sizeFits : size < UInt64.size) : offset + done < UInt64.size := by
  rcases inside with rfl | within
  · exact offsetFits
  · exact Nat.lt_of_le_of_lt within sizeFits

end Inside

end Kernel

/-! ## Histories with their steps -/

namespace Workspace

/-- A history with the workspaces in which the kernel made its steps, oldest first. -/
inductive Passes (unit : UInt8) (start : Workspace) :
    History → (moments : List Workspace) → Workspace → Prop where
  | start : Passes unit start [] [] start
  | step {history : History} {moments : List Workspace} {work : Workspace}
      (earlier : Passes unit start history moments work) :
      Passes unit start (history ++ [.step (Kernel.step unit work).report]) (moments ++ [work])
        (Kernel.step unit work).state
  | next {history : History} {moments : List Workspace} {work after : Workspace} {event : Event}
      (earlier : Passes unit start history moments work)
      (happens : Happens unit work event after) (noStep : ∀ report, event ≠ .step report) :
      Passes unit start (history ++ [event]) moments after

/-- Whether the step of the kernel gives values to the output. -/
def pushes (unit : UInt8) (work : Workspace) : Bool :=
  (Kernel.step unit work).state.buffers.valuesAt Bank.result ≠ work.buffers.valuesAt Bank.result

/-- The value in front of the first input once the markers before it are retired. -/
def offered? (work : Workspace) : Option Word :=
  (work.buffers.dropMarkers.slotsAt Bank.firstOperand).head?.bind Slot.value?

/-- Whether a value is in front of the first input and the step of the kernel succeeds. -/
def accepts (unit : UInt8) (work : Workspace) : Bool :=
  work.offered?.isSome && (Kernel.step unit work).report.isOk

end Workspace

/-! ## Single steps -/

namespace Kernel

variable {unit : UInt8} {work : Workspace} {offset count done : Nat} {ports : List UInt8}

theorem Awaits.of_streamOut (awaits : (Kernel.streamOut offset count done).Awaits ports) :
    done < count := by
  cases awaits with
  | streamOut _ left => exact left

theorem Awaits.of_streamIn (awaits : (Kernel.streamIn offset done).Awaits ports) :
    ports = [Bank.firstOperand] := by
  cases awaits
  rfl

/-- Once markers are retired, a step of a kernel that needs no micro-op is one firing at most. -/
theorem step_outcome (unit : UInt8) (supplied : work.kernel.needsMicroOp = false)
    (notControl : work.kernel ≠ .control) :
    ∃ stepped, Outcome unit (cleared work) stepped ∧ (step unit work).state = stepped.state ∧
      ∀ fault, (step unit work).report = .error fault ↔ stepped.report = .error fault := by
  obtain ⟨progressed, dropped⟩ := dropMarkers_eq work
  have noFetch : fetch unit (cleared work) = .idle (cleared work) := fetch_of_supplied unit supplied
  refine ⟨perform unit (cleared work), perform_outcome unit supplied notControl, ?_⟩
  simp only [step, dropped, Stepped.andThen, noFetch, Stepped.idle]
  cases (perform unit (cleared work)).report <;> simp [Except.map]

/-- The word that a unit streaming out emits in its next step, if it emits one. -/
def emission? (offset count emitted : Nat) (work : Workspace) : Option Word :=
  if emitted < count ∧ work.buffers.hasRoom = true then work.memory[offset + emitted]? else none

/-- A step of a unit that streams out emits the next word of the range. It fails if there should be
such a word and the output has room, but the memory ends before. -/
theorem step_streamOut (unit : UInt8) (holds : work.kernel = .streamOut offset count done) :
    (step unit work).state.kernel =
        .streamOut offset count (done + (emission? offset count done work).toList.length) ∧
      (step unit work).state.buffers.valuesAt Bank.result =
        work.buffers.valuesAt Bank.result ++ (emission? offset count done work).toList ∧
      (step unit work).state.memory = work.memory ∧
      ∀ fault, (step unit work).report = .error fault ↔
        done < count ∧ work.buffers.hasRoom = true ∧ work.memory.size ≤ offset + done ∧
          fault = .memoryOutOfBounds unit (offset + done) work.memory.size := by
  have supplied : work.kernel.needsMicroOp = false := by rw [holds]; rfl
  have notControl : work.kernel ≠ .control := by rw [holds]; exact Kernel.noConfusion
  obtain ⟨stepped, outcome, state, report⟩ := step_outcome unit supplied notControl
  have holdsCleared : (cleared work).kernel = .streamOut offset count done := holds
  rw [state]
  simp only [report]
  cases outcome with
  | idle blocked =>
    have notDue : ¬(done < count ∧ work.buffers.hasRoom = true) := by
      rintro ⟨left, room⟩
      refine blocked [] ?_ ⟨fun _ => room, nofun⟩
      rw [holdsCleared]
      exact .streamOut offset left
    simp only [emission?, if_neg notDue]
    refine ⟨holds, (List.append_nil _).symm, rfl, fun fault => ⟨nofun, ?_⟩⟩
    rintro ⟨left, room, -⟩
    exact absurd ⟨left, room⟩ notDue
  | @fired taken words reaction retired after awaits room ofWords retires reacts emits =>
    rw [holdsCleared] at awaits room reacts
    have due : done < count ∧ work.buffers.hasRoom = true := ⟨awaits.of_streamOut, room rfl⟩
    rw [react] at reacts
    split at reacts
    · rename_i value read
      obtain rfl := Except.ok.inj reacts
      have isRead : work.memory[offset + done]? = some value := read
      simp only [emission?, if_pos due, isRead]
      refine ⟨rfl, ?_, rfl, fun fault => ⟨fun failed => ?_, ?_⟩⟩
      · rw [Stepped.progress, emits.valuesAt, Function.update_self,
          Bank.valuesAt_congr retires.outputs]
        rfl
      · cases failed
      · rintro ⟨-, -, outside, -⟩
        rw [Array.getElem?_eq_none outside] at isRead
        cases isRead
    · cases reacts
  | @faulted taken words retired fault awaits room ofWords retires reacts =>
    rw [holdsCleared] at awaits room reacts
    have due : done < count ∧ work.buffers.hasRoom = true := ⟨awaits.of_streamOut, room rfl⟩
    rw [react] at reacts
    split at reacts
    · cases reacts
    · rename_i read
      obtain rfl := Except.error.inj reacts
      have unread : work.memory[offset + done]? = none := read
      simp only [emission?, if_pos due, unread]
      refine ⟨holds, ?_, rfl, fun fault => ?_⟩
      · rw [Stepped.fault, Bank.valuesAt_congr retires.outputs]
        exact (List.append_nil _).symm
      · simp only [Stepped.fault, Except.error.injEq, due, true_and,
          Array.getElem?_eq_none_iff.mp unread]
        exact eq_comm

/-- The value that a unit streaming in writes in its next step, if it writes one. -/
def intake? (offset written : Nat) (work : Workspace) : Option Word :=
  if offset + written < work.memory.size then work.offered? else none

/-- What a unit that streams in takes is the value in front of its input. -/
theorem offered?_of_retires {taken : List (UInt8 × Slot)} {words : List Word} {retired : Bank}
    (ports : taken.map (·.1) = [Bank.firstOperand])
    (holds : taken.map (·.2.value?) = words.map some)
    (retires : (cleared work).buffers.Retires taken retired) :
    ∃ word, words = [word] ∧ work.offered? = some word := by
  obtain ⟨⟨port, slot⟩, rfl, isPort⟩ := List.map_eq_singleton_iff.mp ports
  obtain rfl : port = Bank.firstOperand := isPort
  obtain ⟨word, rfl, isWord⟩ := List.map_eq_singleton_iff.mp holds.symm
  refine ⟨word, rfl, ?_⟩
  have front := retires.heads _ (List.mem_singleton_self _)
  rw [Workspace.offered?]
  exact Option.bind_eq_some_iff.mpr ⟨slot, front, isWord.symm⟩

/-- A step of a unit that streams in writes the value in front of its input to the next word. It
fails if there is such a value, but the memory ends before. -/
theorem step_streamIn (unit : UInt8) (holds : work.kernel = .streamIn offset done) :
    (step unit work).state.kernel =
        .streamIn offset (done + (intake? offset done work).toList.length) ∧
      (step unit work).state.memory =
        (intake? offset done work).elim work.memory (work.memory.setIfInBounds (offset + done)) ∧
      ∀ fault, (step unit work).report = .error fault ↔
        work.offered?.isSome = true ∧ work.memory.size ≤ offset + done ∧
          fault = .memoryOutOfBounds unit (offset + done) work.memory.size := by
  have supplied : work.kernel.needsMicroOp = false := by rw [holds]; rfl
  have notControl : work.kernel ≠ .control := by rw [holds]; exact Kernel.noConfusion
  obtain ⟨stepped, outcome, state, report⟩ := step_outcome unit supplied notControl
  have holdsCleared : (cleared work).kernel = .streamIn offset done := holds
  rw [state]
  simp only [report]
  cases outcome with
  | idle blocked =>
    have nothing : work.offered? = none := by
      rw [Option.eq_none_iff_forall_ne_some]
      intro value isOffered
      obtain ⟨slot, front, hasValue⟩ := Option.bind_eq_some_iff.mp isOffered
      refine blocked [Bank.firstOperand] ?_ ⟨?_, ?_⟩
      · rw [holdsCleared]
        exact .streamIn offset done
      · rw [holdsCleared]
        nofun
      · intro port member
        obtain rfl := List.mem_singleton.mp member
        exact Bank.ready_iff.mpr ⟨slot, value, front, hasValue⟩
    have noIntake : intake? offset done work = none := by rw [intake?, nothing, ite_self]
    rw [noIntake, nothing]
    exact ⟨holds, rfl, fun fault => ⟨nofun, fun offers => nomatch offers.1⟩⟩
  | @fired taken words reaction retired after awaits room ofWords retires reacts emits =>
    rw [holdsCleared] at awaits reacts
    obtain ⟨word, rfl, offers⟩ := offered?_of_retires awaits.of_streamIn ofWords retires
    rw [react] at reacts
    split at reacts
    · rename_i isInside
      obtain rfl := Except.ok.inj reacts
      have inside : offset + done < work.memory.size := isInside
      simp only [intake?, if_pos inside, offers]
      refine ⟨rfl, rfl, fun fault => ⟨fun failed => ?_, ?_⟩⟩
      · cases failed
      · rintro ⟨-, outside, -⟩
        exact absurd inside (Nat.not_lt_of_le outside)
    · cases reacts
  | @faulted taken words retired fault awaits room ofWords retires reacts =>
    rw [holdsCleared] at awaits reacts
    obtain ⟨word, rfl, offers⟩ := offered?_of_retires awaits.of_streamIn ofWords retires
    rw [react] at reacts
    split at reacts
    · cases reacts
    · rename_i isOutside
      obtain rfl := Except.error.inj reacts
      have outside : ¬offset + done < work.memory.size := isOutside
      simp only [intake?, if_neg outside, offers]
      refine ⟨holds, rfl, fun fault => ?_⟩
      simp only [Stepped.fault, Except.error.injEq, Option.isSome_some, Nat.le_of_not_lt outside,
        true_and]
      exact eq_comm

end Kernel

/-! ## Streams -/

section Filters

variable {Item : Type} {keep : Item → Bool} {item : Item} (items : List Item)

theorem filter_concat_of_kept (kept : keep item = true) :
    (items ++ [item]).filter keep = items.filter keep ++ [item] := by
  rw [List.filter_append, List.filter_cons_of_pos kept, List.filter_nil]

theorem filter_concat_of_dropped (dropped : keep item = false) :
    (items ++ [item]).filter keep = items.filter keep := by
  rw [List.filter_append, List.filter_cons_of_neg (by rw [dropped]; decide), List.filter_nil,
    List.append_nil]

end Filters

namespace Workspace

variable {unit : UInt8} {start work after : Workspace} {history : History}
  {moments : List Workspace} {offset count limit : Nat}

/-- Every history has its steps. -/
theorem Evolves.passes (evolves : Evolves unit start history work) :
    ∃ moments, Passes unit start history moments work := by
  induction evolves with
  | start => exact ⟨[], .start⟩
  | @next history work after event earlier happens ih =>
    obtain ⟨moments, passes⟩ := ih
    cases happens with
    | step => exact ⟨moments ++ [work], passes.step⟩
    | apply applies => exact ⟨moments, passes.next (.apply applies) nofun⟩
    | arrive fills => exact ⟨moments, passes.next (.arrive fills) nofun⟩
    | leave found pops => exact ⟨moments, passes.next (.leave found pops) nofun⟩
    | elsewhere size => exact ⟨moments, passes.next (.elsewhere size) nofun⟩

/-- The memory keeps its size between the steps. -/
theorem Happens.memory_size {event : Event} (happens : Happens unit work event after)
    (noStep : ∀ report, event ≠ .step report) : after.memory.size = work.memory.size := by
  rcases happens.memory_eq noStep with same | ⟨-, sameSize⟩
  · rw [same]
  · exact sameSize

/-- What a unit that streams out has done: the words that it has given are those from the offset on,
each as it was in memory then. -/
structure Emitted (unit : UInt8) (offset count limit : Nat) (pushed : List Word)
    (moments : List Workspace) (work : Workspace) : Prop where
  kernel : work.kernel = .streamOut offset count pushed.length
  bounded : pushed.length ≤ count
  size : work.memory.size = limit
  inside : Kernel.Inside offset pushed.length limit
  words : pushed.map some =
    (moments.filter (pushes unit)).mapIdx fun place moment => moment.memory[offset + place]?

/-- A step emits the next word, or none. -/
theorem Emitted.step {pushed : List Word}
    (emitted : Emitted unit offset count limit pushed moments work) :
    Emitted unit offset count limit
      (pushed ++ (Kernel.emission? offset count pushed.length work).toList) (moments ++ [work])
      (Kernel.step unit work).state := by
  obtain ⟨kernel, values, memory, -⟩ := Kernel.step_streamOut unit emitted.kernel
  have size : (Kernel.step unit work).state.memory.size = limit := by rw [memory, emitted.size]
  cases emission : Kernel.emission? offset count pushed.length work with
  | none =>
    rw [emission] at kernel values
    have noPush : pushes unit work = false := by simp [pushes, values]
    rw [Option.toList_none, List.append_nil]
    refine ⟨kernel, emitted.bounded, size, emitted.inside, ?_⟩
    rw [filter_concat_of_dropped moments noPush]
    exact emitted.words
  | some value =>
    rw [emission] at kernel values
    have push : pushes unit work = true := by simp [pushes, values]
    have before : (moments.filter (pushes unit)).length = pushed.length := by
      have lengths := congrArg List.length emitted.words
      simpa using lengths.symm
    have length : (pushed ++ [value]).length = pushed.length + 1 := List.length_append
    rw [Kernel.emission?] at emission
    split at emission
    · rename_i due
      obtain ⟨within, -⟩ := Array.getElem?_eq_some_iff.mp emission
      rw [emitted.size] at within
      rw [Option.toList_some]
      refine ⟨?_, ?_, size, ?_, ?_⟩
      · rw [length]
        exact kernel
      · rw [length]
        exact due.1
      · rw [length]
        exact .next within
      · rw [filter_concat_of_kept moments push, List.mapIdx_concat, List.map_append,
          emitted.words, before, emission]
        rfl
    · cases emission

/-- What a step adds to the output is pushed. -/
theorem History.pushed_step {bank after : Bank} {more : List Word} (history : History)
    (report : Except Fault Bool)
    (values : after.valuesAt Bank.result = bank.valuesAt Bank.result ++ more) :
    pushed (history ++ [.step report]) after = history.pushed bank ++ more := by
  have nothingLeaves : (Event.step report).left = [] := rfl
  rw [pushed, pushed, left_append, nothingLeaves, List.append_nil, values, List.append_assoc]

theorem Passes.emitted (passes : Passes unit start history moments work)
    (kernel : start.kernel = .streamOut offset count 0)
    (noValues : start.buffers.valuesAt Bank.result = []) :
    Emitted unit offset count start.memory.size (history.pushed work.buffers) moments work := by
  induction passes with
  | start =>
    have nothing : History.pushed [] start.buffers = [] := noValues
    rw [nothing]
    exact ⟨kernel, Nat.zero_le count, rfl, .start, rfl⟩
  | @step history moments work earlier ih =>
    obtain ⟨-, values, -, -⟩ := Kernel.step_streamOut unit ih.kernel
    rw [history.pushed_step _ values]
    exact ih.step
  | next earlier happens noStep ih =>
    obtain ⟨pushed, sameKernel⟩ := happens.pushed noStep _
    rw [pushed]
    exact ⟨sameKernel.trans ih.kernel, ih.bounded, (happens.memory_size noStep).trans ih.size,
      ih.inside, ih.words⟩

/-- What a unit that streams in has done: it has written the values whose steps succeeded from the
offset on, and nothing else. -/
structure Entered (unit : UInt8) (offset limit : Nat) (moments : List Workspace)
    (work : Workspace) : Prop where
  kernel : work.kernel = .streamIn offset (moments.filter (accepts unit)).length
  size : work.memory.size = limit
  inside : Kernel.Inside offset (moments.filter (accepts unit)).length limit
  writes : ∀ place moment, (moments.filter (accepts unit))[place]? = some moment →
    ∃ value, moment.offered? = some value ∧ offset + place < limit ∧
      (Kernel.step unit moment).state.memory =
        moment.memory.setIfInBounds (offset + place) value
  keeps : ∀ moment ∈ moments, accepts unit moment = false →
    (Kernel.step unit moment).state.memory = moment.memory

/-- A value that is in front of the input is written, unless the memory ends before. -/
theorem accepts_eq (unit : UInt8) {written : Nat} (holds : work.kernel = .streamIn offset written) :
    accepts unit work = (Kernel.intake? offset written work).isSome := by
  obtain ⟨-, -, faults⟩ := Kernel.step_streamIn unit holds
  rw [accepts, Kernel.intake?]
  cases offers : work.offered? with
  | none => simp
  | some value =>
    by_cases within : offset + written < work.memory.size
    · have succeeds : (Kernel.step unit work).report.isOk = true := by
        cases reported : (Kernel.step unit work).report with
        | ok progressed => rfl
        | error fault =>
          obtain ⟨-, outside, -⟩ := (faults fault).mp reported
          exact absurd within (Nat.not_lt_of_le outside)
      simp [within, succeeds]
    · have fails := (faults _).mpr ⟨by rw [offers]; rfl, Nat.le_of_not_lt within, rfl⟩
      simp [within, fails, Except.isOk, Except.toBool]

theorem Entered.step (entered : Entered unit offset limit moments work) :
    Entered unit offset limit (moments ++ [work]) (Kernel.step unit work).state := by
  obtain ⟨kernel, memory, -⟩ := Kernel.step_streamIn unit entered.kernel
  have accepted := accepts_eq unit entered.kernel
  cases intake : Kernel.intake? offset (moments.filter (accepts unit)).length work with
  | none =>
    rw [intake] at kernel memory accepted
    have same := filter_concat_of_dropped moments accepted
    refine ⟨?_, ?_, ?_, ?_, ?_⟩
    · rw [same]
      exact kernel
    · rw [memory]
      exact entered.size
    · rw [same]
      exact entered.inside
    · rw [same]
      exact entered.writes
    · intro moment member refused
      rcases List.mem_append.mp member with early | late
      · exact entered.keeps moment early refused
      · obtain rfl := List.mem_singleton.mp late
        exact memory
  | some value =>
    rw [intake] at kernel memory accepted
    rw [Kernel.intake?] at intake
    split at intake
    · rename_i within
      rw [entered.size] at within
      have grown := filter_concat_of_kept moments accepted
      refine ⟨?_, ?_, ?_, ?_, ?_⟩
      · rw [grown, List.length_append]
        exact kernel
      · rw [memory]
        exact Array.size_setIfInBounds.trans entered.size
      · rw [grown, List.length_append]
        exact .next within
      · intro place moment isMoment
        rw [grown, List.getElem?_append] at isMoment
        split at isMoment
        · exact entered.writes place moment isMoment
        · rename_i notEarlier
          rw [List.getElem?_singleton] at isMoment
          split at isMoment
          · rename_i isLast
            obtain rfl := Option.some.inj isMoment
            have here : place = (moments.filter (accepts unit)).length := by omega
            rw [here]
            exact ⟨value, intake, within, memory⟩
          · cases isMoment
      · intro moment member refused
        rcases List.mem_append.mp member with early | late
        · exact entered.keeps moment early refused
        · obtain rfl := List.mem_singleton.mp late
          rw [accepted] at refused
          cases refused
    · cases intake

theorem Passes.entered (passes : Passes unit start history moments work)
    (kernel : start.kernel = .streamIn offset 0) :
    Entered unit offset start.memory.size moments work := by
  induction passes with
  | start => exact ⟨kernel, rfl, .start, nofun, nofun⟩
  | step earlier ih => exact ih.step
  | next earlier happens noStep ih =>
    refine ⟨?_, ?_, ih.inside, ih.writes, ih.keeps⟩
    · rw [(happens.pushed noStep []).2, ih.kernel]
    · rw [happens.memory_size noStep, ih.size]

/-- A step that ends in a fault does not count as a word done. -/
theorem kernel_of_streamIn_fault {written : Nat} {fault : Fault}
    (holds : work.kernel = .streamIn offset written)
    (faults : (Kernel.step unit work).report = .error fault) :
    (Kernel.step unit work).state.kernel = work.kernel := by
  obtain ⟨kernel, -, report⟩ := Kernel.step_streamIn unit holds
  obtain ⟨-, outside, -⟩ := (report fault).mp faults
  rw [kernel, Kernel.intake?, if_neg (Nat.not_lt_of_le outside), holds]
  rfl

theorem kernel_of_streamOut_fault {emitted : Nat} {fault : Fault}
    (holds : work.kernel = .streamOut offset count emitted)
    (faults : (Kernel.step unit work).report = .error fault) :
    (Kernel.step unit work).state.kernel = work.kernel := by
  obtain ⟨kernel, -, -, report⟩ := Kernel.step_streamOut unit holds
  obtain ⟨-, -, outside, -⟩ := (report fault).mp faults
  rw [kernel, Kernel.emission?, Array.getElem?_eq_none outside, ite_self, holds]
  rfl

/-- Whatever the offset, and whatever happens around them, units that stream move exactly their
range.

A unit that streams out has emitted the words from its offset on, each as it was in memory in the
step that emitted it, and not more than its count. A unit that streams in has written the values
whose steps succeeded to the words from its offset on, each step one word, and no other step has
changed the memory. In both cases the next address has 64 bits, a step fails exactly if there is a
word to be moved and the next address is not in memory, and then it changes neither the memory nor
the output nor the number of words done. -/
theorem streams_move_range (unit : UInt8) {offset : Nat} {memory : Memory} (count : Nat)
    (depth : Depth) (results : Array Word) (offsetFits : offset < UInt64.size)
    (sizeFits : memory.size < UInt64.size) :
    (∀ history moments work,
      Passes unit ⟨.streamOut offset count 0, .empty unit .streamOut depth, memory, results⟩
        history moments work →
      let pushed := history.pushed work.buffers
      let next := offset + pushed.length
      let stepped := Kernel.step unit work
      next < UInt64.size ∧ work.kernel = .streamOut offset count pushed.length ∧
      pushed.length ≤ count ∧
      (pushed.map some = (moments.filter (pushes unit)).mapIdx fun place moment =>
        moment.memory[offset + place]?) ∧
      (∀ fault, stepped.report = .error fault ↔
        pushed.length < count ∧ work.buffers.hasRoom = true ∧ memory.size ≤ next ∧
          fault = .memoryOutOfBounds unit next memory.size) ∧
      ∀ fault, stepped.report = .error fault →
        stepped.state.kernel = work.kernel ∧ work.SameOutside stepped.state) ∧
    ∀ history moments work,
      Passes unit ⟨.streamIn offset 0, .empty unit .streamIn depth, memory, results⟩
        history moments work →
      let accepted := moments.filter (accepts unit)
      let next := offset + accepted.length
      let stepped := Kernel.step unit work
      next < UInt64.size ∧ work.kernel = .streamIn offset accepted.length ∧
      (∀ place moment, accepted[place]? = some moment → ∃ value,
        moment.offered? = some value ∧ offset + place < memory.size ∧
        (Kernel.step unit moment).state.memory =
          moment.memory.setIfInBounds (offset + place) value) ∧
      (∀ moment ∈ moments, accepts unit moment = false →
        (Kernel.step unit moment).state.memory = moment.memory) ∧
      (∀ fault, stepped.report = .error fault ↔
        work.offered?.isSome = true ∧ memory.size ≤ next ∧
          fault = .memoryOutOfBounds unit next memory.size) ∧
      ∀ fault, stepped.report = .error fault →
        stepped.state.kernel = work.kernel ∧ work.SameOutside stepped.state := by
  constructor
  · intro history moments work passes pushed next stepped
    have emitted := passes.emitted rfl (Bank.valuesAt_empty unit .streamOut depth _)
    have notControl : work.kernel ≠ .control := by
      rw [emitted.kernel]
      exact Kernel.noConfusion
    obtain ⟨-, -, -, report⟩ := Kernel.step_streamOut unit emitted.kernel
    rw [emitted.size] at report
    exact ⟨emitted.inside.lt_size offsetFits sizeFits, emitted.kernel, emitted.bounded,
      emitted.words, report, fun fault faults =>
        ⟨kernel_of_streamOut_fault emitted.kernel faults,
          Kernel.sameOutside_of_fault notControl faults⟩⟩
  · intro history moments work passes accepted next stepped
    have entered := passes.entered rfl
    have notControl : work.kernel ≠ .control := by
      rw [entered.kernel]
      exact Kernel.noConfusion
    obtain ⟨-, -, report⟩ := Kernel.step_streamIn unit entered.kernel
    rw [entered.size] at report
    exact ⟨entered.inside.lt_size offsetFits sizeFits, entered.kernel, entered.writes,
      entered.keeps, report, fun fault faults =>
        ⟨kernel_of_streamIn_fault entered.kernel faults,
          Kernel.sameOutside_of_fault notControl faults⟩⟩

/-- A word is emitted and leaves for another unit; the memory ends before the second one. -/
def oneEmitted : History :=
  [.apply (.direct Bank.result ⟨3, 0⟩), .step (.ok true),
    .leave Bank.result ⟨.ofNat 5, ⟨2, 0⟩, ⟨3, 0⟩⟩]

/-- A value is written behind a marker; for the second one there is no word. -/
def oneWritten : History :=
  [.apply (.register Bank.firstOperand .null), .apply (.write Bank.firstOperand (.ofNat 9)),
    .step (.ok true), .elsewhere, .apply (.write Bank.firstOperand (.ofNat 8))]

theorem range_moved :
    1 < UInt64.size ∧ (#[.zero, .ofNat 5] : Memory).size < UInt64.size ∧
    (∃ moments work,
      Passes 2 ⟨.streamOut 1 2 0, .empty 2 .streamOut ⟨4, by decide, by decide⟩,
        #[.zero, .ofNat 5], #[]⟩ oneEmitted moments work ∧
      oneEmitted.pushed work.buffers = [.ofNat 5] ∧
      (Kernel.step 2 work).report = .error (.memoryOutOfBounds 2 2 2) ∧
      (Kernel.step 2 work).state.kernel = .streamOut 1 2 1) ∧
    ∃ moments work,
      Passes 2 ⟨.streamIn 1 0, .empty 2 .streamIn ⟨4, by decide, by decide⟩,
        #[.zero, .ofNat 5], #[]⟩ oneWritten moments work ∧
      work.memory = #[.ofNat 7, .ofNat 9] ∧
      (Kernel.step 2 work).report = .error (.memoryOutOfBounds 2 2 2) ∧
      (Kernel.step 2 work).state.kernel = .streamIn 1 1 := by
  have offsetFits : 1 < UInt64.size := by decide
  have sizeFits : (#[.zero, .ofNat 5] : Memory).size < UInt64.size := by decide
  obtain ⟨emits, writes⟩ :=
    streams_move_range 2 2 ⟨4, by decide, by decide⟩ #[] offsetFits sizeFits
  have directed := (@Passes.start 2
    ⟨.streamOut 1 2 0, .empty 2 .streamOut ⟨4, by decide, by decide⟩, #[.zero, .ofNat 5],
      #[]⟩).next (@Happens.apply 2 _ (.direct Bank.result ⟨3, 0⟩) _ rfl) nofun
  have left := directed.step.next (@Happens.leave 2 _ Bank.result _ _ _ rfl rfl) nofun
  have outgoing : Passes 2 _ oneEmitted _ _ := left
  have marked := (@Passes.start 2
    ⟨.streamIn 1 0, .empty 2 .streamIn ⟨4, by decide, by decide⟩, #[.zero, .ofNat 5],
      #[]⟩).next (@Happens.apply 2 _ (.register Bank.firstOperand .null) _ rfl) nofun
  have supplied :=
    marked.next (@Happens.apply 2 _ (.write Bank.firstOperand (.ofNat 9)) _ rfl) nofun
  have disturbed := supplied.step.next
    (@Happens.elsewhere 2 _ #[.ofNat 7, .ofNat 9] #[] rfl) nofun
  have again := disturbed.next
    (@Happens.apply 2 _ (.write Bank.firstOperand (.ofNat 8)) _ rfl) nofun
  have incoming : Passes 2 _ oneWritten _ _ := again
  obtain ⟨-, -, -, -, -, faultsOut⟩ := emits _ _ _ outgoing
  obtain ⟨-, -, -, -, -, faultsIn⟩ := writes _ _ _ incoming
  exact ⟨offsetFits, sizeFits, ⟨_, _, outgoing, rfl, rfl, (faultsOut _ rfl).1⟩,
    ⟨_, _, incoming, rfl, rfl, (faultsIn _ rfl).1⟩⟩

end Workspace

end MoveMachine
