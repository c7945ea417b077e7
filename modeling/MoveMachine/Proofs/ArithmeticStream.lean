import MoveMachine.Proofs.ExactArithmetic
import MoveMachine.Proofs.Kernel.Running
import MoveMachine.Proofs.Kernel.Repetition
import MoveMachine.Proofs.Machine.Stillness

/-!
# The arithmetic unit computes a stream function

An arithmetic unit takes micro-ops and operands from three inputs, and nothing is known of
the order in which these are supplied. Yet its results are a function of what it has taken
alone: the result in one place is that of the operation in this place on the operands in
this place (`Workspace.computes_stream`).

The invariant that carries this speaks of lists only (`ArithmeticOp.Streams`): as many
values are taken from either operand's input as results are given, and the current micro-op
is what remains of the operations asked for after so many. Taking a micro-op keeps it, and
so does a computation; therefore each firing of the kernel does.
-/

set_option autoImplicit false

namespace MoveMachine

namespace ArithmeticOp

/-! ## The invariant -/

/-- The results given are those of the operations asked for on the operands taken, place by place,
and the current micro-op is what remains of the operations. -/
structure Streams (unit : UInt8) (words firsts seconds pushed : List Word)
    (current : Option (Repeated ArithmeticOp)) : Prop where
  decodes : ∀ word ∈ words, (ofCode? word.opcode).isSome = true
  length_firsts : firsts.length = pushed.length
  length_seconds : seconds.length = pushed.length
  results : ((Word.asked ofCode? words).zip (firsts.zip seconds)).map
    (fun task => task.1.compute unit task.2.1 task.2.2) = pushed.map .ok
  remains : Remains (Word.asked ofCode? words) pushed.length current

namespace Streams

variable {unit : UInt8} {words firsts seconds pushed : List Word}
  {current : Option (Repeated ArithmeticOp)}

theorem start (unit : UInt8) : Streams unit [] [] [] [] none where
  decodes := nofun
  length_firsts := rfl
  length_seconds := rfl
  results := rfl
  remains := .start

theorem length_zip (streams : Streams unit words firsts seconds pushed current) :
    (firsts.zip seconds).length = pushed.length := by
  rw [List.length_zip, streams.length_firsts, streams.length_seconds, Nat.min_self]

/-- A micro-op that is taken asks for operations behind all others. -/
theorem fetch (streams : Streams unit words firsts seconds pushed none) {word : Word}
    {op : ArithmeticOp} (decodes : ofCode? word.opcode = some op) :
    Streams unit (words ++ [word]) firsts seconds pushed
      (Repeated.ofCount? op word.repetitions) where
  decodes := Word.decodes_append streams.decodes decodes
  length_firsts := streams.length_firsts
  length_seconds := streams.length_seconds
  results := by
    rw [Word.asked_append _ decodes, zip_of_more, streams.results]
    rw [streams.length_zip]
    exact streams.remains.bounded
  remains := by
    rw [Word.asked_append _ decodes]
    exact streams.remains.ask op word.repetitions

/-- A computation gives the result of the next operation. -/
theorem compute {repeated : Repeated ArithmeticOp}
    (streams : Streams unit words firsts seconds pushed (some repeated)) {first second value : Word}
    (computes : repeated.op.eval? first second = some value) :
    Streams unit words (firsts ++ [first]) (seconds ++ [second]) (pushed ++ [value])
      repeated.next? where
  decodes := streams.decodes
  length_firsts := by rw [List.length_append, List.length_append, streams.length_firsts]; rfl
  length_seconds := by rw [List.length_append, List.length_append, streams.length_seconds]; rfl
  results := by
    have next : (Word.asked ofCode? words)[(firsts.zip seconds).length]? = some repeated.op := by
      rw [streams.length_zip]
      exact streams.remains.getElem?_eq
    have isValue : repeated.op.compute unit first second = .ok value := by
      rw [ArithmeticOp.compute, computes]
    have pairs : (firsts ++ [first]).zip (seconds ++ [second]) =
        firsts.zip seconds ++ [(first, second)] :=
      List.zip_append (streams.length_firsts.trans streams.length_seconds.symm)
    rw [pairs, zip_of_next _ next, List.map_append, List.map_append, streams.results,
      List.map_singleton, List.map_singleton, isValue]
  remains := by
    rw [List.length_append]
    exact streams.remains.execute

/-- Every result is that of one operation on one pair of operands, in the same place. -/
theorem result (streams : Streams unit words firsts seconds pushed current) {place : Nat}
    {value : Word} (isResult : pushed[place]? = some value) :
    ∃ op first second, (Word.asked ofCode? words)[place]? = some op ∧
      firsts[place]? = some first ∧ seconds[place]? = some second ∧
      op.compute unit first second = .ok value := by
  have here : (pushed.map Except.ok)[place]? = some (Except.ok (ε := Fault) value) := by
    rw [List.getElem?_map, isResult]
    rfl
  rw [← streams.results, List.getElem?_map, Option.map_eq_some_iff] at here
  obtain ⟨⟨op, first, second⟩, task, computes⟩ := here
  obtain ⟨isOp, pair⟩ := List.getElem?_zip_eq_some.mp task
  obtain ⟨isFirst, isSecond⟩ := List.getElem?_zip_eq_some.mp pair
  exact ⟨op, first, second, isOp, isFirst, isSecond, computes⟩

end Streams

end ArithmeticOp

/-! ## The firings of an arithmetic unit -/

namespace Kernel

open ArithmeticOp (ofCode?)

variable {unit : UInt8} {progress next : Progress} {current : Option (Repeated ArithmeticOp)}

/-- An arithmetic unit has computed what it was asked for. -/
def Streams (unit : UInt8) (progress : Progress) (current : Option (Repeated ArithmeticOp)) :
    Prop :=
  progress.kernel = .arithmetic current ∧
    ArithmeticOp.Streams unit (progress.consumed Bank.opcodes) (progress.consumed Bank.firstOperand)
      (progress.consumed Bank.secondOperand) progress.pushed current

theorem Streams.advances (streams : Streams unit progress current)
    (advances : Advances unit progress next) : ∃ further, Streams unit next further := by
  obtain ⟨kernel, account⟩ := streams
  cases advances with
  | @intro ports words reaction awaits supplied reacts =>
    rw [kernel] at awaits reacts
    cases awaits with
    | arithmeticOp =>
      obtain ⟨word, rfl⟩ := List.length_eq_one_iff.mp supplied
      simp only [react] at reacts
      split at reacts
      · rename_i op decodes
        obtain rfl := Except.ok.inj reacts
        refine ⟨_, rfl, ?_⟩
        simp (disch := decide) only [Progress.fire, Progress.fed_of_not_mem, Option.toList_none,
          List.append_nil]
        exact account.fetch decodes
      · cases reacts
    | operands repeated =>
      obtain ⟨first, second, rfl⟩ := List.length_eq_two.mp supplied
      simp only [react] at reacts
      split at reacts
      · rename_i value computes
        obtain rfl := Except.ok.inj reacts
        refine ⟨_, rfl, ?_⟩
        simp (disch := decide) only [Progress.fire, Progress.fed_of_not_mem, Option.toList_some]
        exact account.compute computes
      · cases reacts

/-- However an arithmetic unit has fired, it has computed what it was asked for. -/
theorem Reaches.streams {disturbed : Prop} {memory : Memory}
    (reaches : Reaches unit disturbed (.arithmetic none) memory progress) :
    ∃ current, Streams unit progress current := by
  induction reaches with
  | start => exact ⟨none, rfl, .start unit⟩
  | fire earlier advances ih =>
    obtain ⟨current, streams⟩ := ih
    exact streams.advances advances
  | disturb earlier isDisturbed size ih =>
    obtain ⟨current, kernel, streams⟩ := ih
    exact ⟨current, kernel, streams⟩

/-- Why an arithmetic unit fails to fire: what it was told to do next is no operation, or is a
division by the zero that comes next. -/
inductive Unworkable (unit : UInt8) (progress next : Progress) : Fault → Prop where
  | opcode (word : Word) (unknown : ofCode? word.opcode = none)
      (holds : next.kernel = .arithmetic none)
      (usedUp : progress.pushed.length =
        (Word.asked ofCode? (progress.consumed Bank.opcodes)).length)
      (consumed : next.consumed = Function.update progress.consumed Bank.opcodes
        (progress.consumed Bank.opcodes ++ [word])) :
      Unworkable unit progress next (.invalidMicroOp unit .arithmetic word.opcode)
  | division (op : ArithmeticOp) (divides : op ∈ ArithmeticOp.divisions) (first : Word)
      (words : progress.consumed Bank.opcodes <+: next.consumed Bank.opcodes)
      (isNext :
        (Word.asked ofCode? (next.consumed Bank.opcodes))[progress.pushed.length]? = some op)
      (firsts : next.consumed Bank.firstOperand = progress.consumed Bank.firstOperand ++ [first])
      (seconds : next.consumed Bank.secondOperand =
        progress.consumed Bank.secondOperand ++ [.zero])
      (holds : next.kernel = .arithmetic (some ⟨op,
        (Word.asked ofCode? (next.consumed Bank.opcodes)).length - progress.pushed.length⟩)) :
      Unworkable unit progress next (.divisionByZero unit)

theorem Streams.breaks {fault : Fault} (streams : Streams unit progress current)
    (breaks : Breaks unit fault progress next) : Unworkable unit progress next fault := by
  cases breaks with
  | @intro middle ports words prepares awaits supplied reacts =>
    have prepared := prepares.spec
    obtain ⟨further, kernel, account⟩ :=
      prepares.keeps (∃ further, Streams unit · further) ⟨current, streams⟩ streams.advances
    rw [kernel] at awaits reacts
    cases awaits with
    | arithmeticOp =>
      obtain ⟨word, rfl⟩ := List.length_eq_one_iff.mp supplied
      -- had a micro-op been fetched before, the step would not look for another one
      obtain rfl : middle = progress := by
        apply prepared.unfetched
        rw [kernel]
        rfl
      simp only [react] at reacts
      split at reacts
      · cases reacts
      · rename_i unknown
        obtain rfl := Except.error.inj reacts
        exact .opcode word unknown kernel account.remains.length_eq (middle.fed_one _ word)
    | operands repeated =>
      obtain ⟨first, second, rfl⟩ := List.length_eq_two.mp supplied
      simp only [react] at reacts
      split at reacts
      · cases reacts
      · rename_i noResult
        obtain rfl := Except.error.inj reacts
        obtain ⟨divides, rfl⟩ := ArithmeticOp.eval?_eq_none_iff.mp noResult
        -- the operands are lost, but what was asked for stays
        have words : middle.fed [Bank.firstOperand, Bank.secondOperand] [first, .zero]
            Bank.opcodes = middle.consumed Bank.opcodes := middle.fed_of_not_mem _ (by decide)
        refine .division repeated.op divides first ?_ ?_ ?_ ?_ ?_
        · simp only [words]
          exact prepared.opcodes
        · simp only [words]
          rw [← prepared.pushed]
          exact account.remains.getElem?_eq
        · rw [← prepared.operands _ Bank.firstOperand_ne_opcodes]
          rfl
        · rw [← prepared.operands _ Bank.secondOperand_ne_opcodes]
          rfl
        · simp only [words]
          rw [kernel, ← prepared.pushed, ← account.remains.remaining_eq]

end Kernel

namespace Workspace

/-- The results of an arithmetic unit, as long as no step has ended in a fault, are those of the
operations that it was asked for on the operands that it has taken, place by place, and it has taken
as many of either operand as it has given results. It is busy as long as operations are left, and
then holds the next one with their number. What it has taken are the oldest values of its inputs, in
order. A step that makes no progress has found nothing that could be done. A step that ends in a
fault does so because of what comes next, and changes nothing outside. -/
theorem computes_stream {unit : UInt8} {depth : Depth} {memory : Memory} {results : Array Word}
    {history : History} {work : Workspace}
    (evolves : Evolves unit ⟨.arithmetic none, .empty unit .arithmetic depth, memory, results⟩
      history work)
    (faultless : history.Faultless) :
    let words := history.consumed work.buffers Bank.opcodes
    let ops := Word.asked ArithmeticOp.ofCode? words
    let firsts := history.consumed work.buffers Bank.firstOperand
    let seconds := history.consumed work.buffers Bank.secondOperand
    let pushed := history.pushed work.buffers
    history.TakesInOrder work.buffers ∧
    (∀ word ∈ words, (ArithmeticOp.ofCode? word.opcode).isSome = true) ∧
    firsts.length = pushed.length ∧ seconds.length = pushed.length ∧ pushed.length ≤ ops.length ∧
    (∀ (place : Nat) (value : Word), pushed[place]? = some value →
      ∃ (op : ArithmeticOp) (first second : Word), ops[place]? = some op ∧
        firsts[place]? = some first ∧ seconds[place]? = some second ∧
        op.compute unit first second = .ok value) ∧
    (work.kernel.isBusy = true ↔ firsts.length < ops.length) ∧
    work.kernel = .arithmetic (ops[firsts.length]?.map (⟨·, ops.length - firsts.length⟩)) ∧
    (Kernel.step unit work).Rests work
      (work.buffers.hasMarker = false ∧ Kernel.Blocked work) ∧
    ∀ fault, (Kernel.step unit work).report = .error fault →
      work.SameOutside (Kernel.step unit work).state ∧
      history.TakesInOrder (Kernel.step unit work).state.buffers ∧
      Kernel.Unworkable unit (history.progress work)
        (history.progress (Kernel.step unit work).state) fault := by
  intro words ops firsts seconds pushed
  have notControl : Kernel.arithmetic none ≠ .control := Kernel.noConfusion
  have traces : Traces unit True (.arithmetic none) memory history work :=
    evolves.traces notControl (Bank.slotsAt_empty unit .arithmetic depth)
      (Bank.valuesAt_empty unit .arithmetic depth _) faultless fun _ => trivial
  obtain ⟨current, streams⟩ := traces.reaches.streams
  obtain ⟨kernel, account⟩ := streams
  have holds : work.kernel = .arithmetic current := kernel
  have done : firsts.length = pushed.length := account.length_firsts
  refine ⟨traces.balanced.takesInOrder, account.decodes, done, account.length_seconds,
    account.remains.bounded, fun place value => account.result, ?_, ?_,
    Kernel.step_rests unit work, ?_⟩
  · rw [holds, done]
    exact account.remains.isSome_iff
  · rw [holds, done]
    exact congrArg Kernel.arithmetic account.remains.current_eq
  · intro fault faults
    have notControlHere := traces.reaches.notControl notControl
    obtain ⟨balanced, breaks⟩ := traces.balanced.breaks notControlHere faults
    exact ⟨Kernel.sameOutside_of_fault notControlHere faults, balanced.takesInOrder,
      Kernel.Streams.breaks ⟨kernel, account⟩ breaks⟩

/-- Two quotients are asked for. The first one has left, and the second one is by zero. -/
def quotients : History :=
  [.apply (.write Bank.opcodes (.ofMicroOp 4 2)),
    .apply (.register Bank.firstOperand .null), .apply (.register Bank.firstOperand ⟨3, 0⟩),
    .apply (.write Bank.secondOperand (.ofNat 4)), .arrive Bank.firstOperand ⟨3, 0⟩ (.ofNat 12),
    .step (.ok true), .apply (.direct Bank.result ⟨5, 0⟩),
    .leave Bank.result ⟨.ofNat 3, ⟨1, 0⟩, ⟨5, 0⟩⟩,
    .apply (.write Bank.firstOperand (.ofNat 7)), .apply (.write Bank.secondOperand .zero)]

theorem quotients_compute :
    ∃ work,
      Evolves 1 ⟨.arithmetic none, .empty 1 .arithmetic ⟨4, by decide, by decide⟩, #[], #[]⟩
        quotients work ∧ quotients.Faultless ∧
      quotients.consumed work.buffers Bank.opcodes = [.ofMicroOp 4 2] ∧
      quotients.consumed work.buffers Bank.firstOperand = [.ofNat 12] ∧
      quotients.consumed work.buffers Bank.secondOperand = [.ofNat 4] ∧
      quotients.pushed work.buffers = [.ofNat 3] ∧
      work.kernel = .arithmetic (some ⟨.divN, 1⟩) ∧
      (Kernel.step 1 work).report = .error (.divisionByZero 1) ∧
      Kernel.Unworkable 1 (quotients.progress work)
        (quotients.progress (Kernel.step 1 work).state) (.divisionByZero 1) := by
  have fresh := @Evolves.start 1
    ⟨.arithmetic none, .empty 1 .arithmetic ⟨4, by decide, by decide⟩, #[], #[]⟩
  have told := fresh.next (@Happens.apply 1 _ (.write Bank.opcodes (.ofMicroOp 4 2)) _ rfl)
  have marked := told.next (@Happens.apply 1 _ (.register Bank.firstOperand .null) _ rfl)
  have expecting := marked.next (@Happens.apply 1 _ (.register Bank.firstOperand ⟨3, 0⟩) _ rfl)
  have written := expecting.next (@Happens.apply 1 _ (.write Bank.secondOperand (.ofNat 4)) _ rfl)
  have arrived := written.next (@Happens.arrive 1 _ Bank.firstOperand ⟨3, 0⟩ (.ofNat 12) _ rfl)
  have directed := (arrived.next .step).next (@Happens.apply 1 _ (.direct Bank.result ⟨5, 0⟩) _ rfl)
  have gone := directed.next (@Happens.leave 1 _ Bank.result _ _ _ rfl rfl)
  have further := gone.next (@Happens.apply 1 _ (.write Bank.firstOperand (.ofNat 7)) _ rfl)
  have evolves : Evolves 1 _ quotients _ :=
    further.next (@Happens.apply 1 _ (.write Bank.secondOperand .zero) _ rfl)
  have faultless : quotients.Faultless := by
    intro fault member
    simp [quotients] at member
  obtain ⟨-, -, -, -, -, -, -, -, -, faults⟩ := computes_stream evolves faultless
  exact ⟨_, evolves, faultless, rfl, rfl, rfl, rfl, rfl, rfl, (faults _ rfl).2.2⟩

end Workspace
end MoveMachine
