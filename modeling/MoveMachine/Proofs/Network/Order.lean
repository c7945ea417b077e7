import MoveMachine.Proofs.Network.Account

/-!
# The order of instructions and values

Instructions are issued in the order of the program, jumps followed
(`Network.Evolves.issued_eq`). Slots are opened and outputs directed in the
order of issue (`Network.Account.opened_append`, `Network.Account.directed_append`),
so instructions and slots match by position (`Network.Account.slot_of_issued`).

Values match by position too. The value that fills the slot of a move is the
value of its source with the rank that the move has among all moves from there
(`Network.Account.value_of_arrived`): on the way from the output to the input,
both the values and the destinations stay in order, and so do the values on each
route.
-/

set_option autoImplicit false

namespace MoveMachine

/-! ## Positions in lists -/

section Positions

variable {Item : Type} {list : List Item} {index : Nat} {item : Item}

/-- An item that passes a test has as its position among all that pass the number of those
before it. -/
theorem getElem?_filter_countP (test : Item → Bool) (found : list[index]? = some item)
    (passes : test item = true) :
    (list.filter test)[(list.take index).countP test]? = some item := by
  obtain ⟨inside, rfl⟩ := List.getElem?_eq_some_iff.mp found
  have split : list = list.take index ++ list[index] :: list.drop (index + 1) := by
    rw [List.getElem_cons_drop, List.take_append_drop]
  have filtered := congrArg (List.filter test) split
  rw [List.filter_append, List.filter_cons_of_pos passes] at filtered
  rw [filtered, List.countP_eq_length_filter]
  simp

/-- Filtering the front of a list gives the front of the filtered list. -/
theorem filter_take_eq (list : List Item) (test : Item → Bool) (index : Nat) :
    (list.take index).filter test = (list.filter test).take ((list.take index).countP test) := by
  have front := (List.take_prefix index list).filter test
  rw [List.prefix_iff_eq_take.mp front, List.countP_eq_length_filter]

end Positions

namespace Instruction

/-- The index of the instruction that follows when so many were issued. -/
def indexAfter (program : List Instruction) : (count : Nat) → Nat
  | 0 => 0
  | count + 1 =>
    match program[indexAfter program count]? with
    | some instruction => instruction.next (indexAfter program count)
    | none => indexAfter program count

/-- The instructions of a program that are issued first. -/
def firstIssued (program : List Instruction) (count : Nat) : List Instruction :=
  (List.range count).filterMap fun earlier => program[indexAfter program earlier]?

/-- How many of the instructions before an index are of a certain kind. -/
def rank (issued : List Instruction) (index : Nat) (kind : Instruction → Bool) : Nat :=
  (issued.take index).countP kind

theorem firstIssued_succ (program : List Instruction) (count : Nat) :
    firstIssued program (count + 1) =
      firstIssued program count ++ (program[indexAfter program count]?).toList := by
  rw [firstIssued, List.range_succ, List.filterMap_append, firstIssued]
  cases next : program[indexAfter program count]? <;> simp [next]

/-- At the end of the program nothing more is issued. -/
theorem firstIssued_of_ended {program : List Instruction} {count more : Nat}
    (ended : program[indexAfter program count]? = none) (later : count ≤ more) :
    firstIssued program more = firstIssued program count ∧
      indexAfter program more = indexAfter program count := by
  induction later with
  | refl => exact ⟨rfl, rfl⟩
  | step _ ih =>
    obtain ⟨issued, index⟩ := ih
    rw [firstIssued_succ, issued, indexAfter, index, ended]
    exact ⟨List.append_nil _, rfl⟩

end Instruction

namespace Network

variable {program : List Instruction} {depth : Nat} {start network after : Network}
  {history : History}

/-! ## The order of issue -/

/-- What is issued, and where the program goes on, depends on the number of instructions issued
only. -/
theorem Evolves.issued_eq (blank : start.Blank)
    (evolves : Evolves program depth start history network) :
    history.issued = Instruction.firstIssued program network.issued ∧
      network.pc = Instruction.indexAfter program network.issued ∧
      history.issued.length = network.issued := by
  induction evolves with
  | start => simp [History.issued, blank.issued, blank.pc, Instruction.firstIssued,
      Instruction.indexAfter]
  | step earlier happens ih =>
    obtain ⟨issued, pc, length⟩ := ih
    cases happens with
    | issue running next =>
      rw [pc] at next
      rw [History.issued_append, issued, Instruction.firstIssued_succ, next]
      refine ⟨rfl, ?_, ?_⟩
      · simp only [Instruction.indexAfter, next, pc]
      · rw [← issued, List.length_append, length]
        rfl
    | halt | fetch | openSlot | direct | clear | fire | fail | send | arrive | write =>
      simpa using ⟨issued, pc, length⟩

/-- The program is at its end once it was found to be. -/
theorem Evolves.ended (blank : start.Blank)
    (evolves : Evolves program depth start history network) (halted : network.halted = true) :
    program[network.pc]? = none := by
  induction evolves with
  | start => simp [blank.halted] at halted
  | step earlier happens ih =>
    cases happens with
    | issue running => simp [running] at halted
    | halt running ended => exact ended
    | fetch | openSlot | direct | clear | fire | fail | send | arrive | write => exact ih halted

/-- What is issued up to the end depends on the program only. -/
theorem Evolves.issued_unique {depthOther : Nat} {startOther final : Network} {other : History}
    (blank : start.Blank) (blankOther : startOther.Blank)
    (evolves : Evolves program depth start history network)
    (evolvesOther : Evolves program depthOther startOther other final)
    (halted : network.halted = true) (haltedOther : final.halted = true) :
    history.issued = other.issued ∧ network.issued = final.issued := by
  obtain ⟨issued, index, length⟩ := evolves.issued_eq blank
  obtain ⟨issuedOther, indexOther, lengthOther⟩ := evolvesOther.issued_eq blankOther
  have ended := evolves.ended blank halted
  have endedOther := evolvesOther.ended blankOther haltedOther
  rw [index] at ended
  rw [indexOther] at endedOther
  have same : history.issued = other.issued := by
    rw [issued, issuedOther]
    rcases Nat.le_total network.issued final.issued with fewer | more
    · exact (Instruction.firstIssued_of_ended ended fewer).1.symm
    · exact (Instruction.firstIssued_of_ended endedOther more).1
  exact ⟨same, by rw [← length, ← lengthOther, same]⟩

/-! ## Slots and destinations by position -/

/-- The slots opened in an input and the instructions still held for it are the instructions
issued for it, in the order of issue. -/
theorem Account.opened_append (account : Account history network) (input : Address) :
    history.opened input ++ (network.held (input.unit, .input)).filter (·.goesTo input) =
      history.issued.filter (·.goesTo input) := by
  have managers := congrArg (List.filter (·.goesTo input)) (account.managers (input.unit, .input))
  rw [List.filter_append, List.filter_filter] at managers
  refine managers.trans (List.filter_congr fun instruction _ => ?_)
  cases goes : instruction.goesTo input with
  | false => rfl
  | true => simpa using Instruction.concerns_input_iff.mpr ⟨input, rfl, goes⟩

theorem Account.directed_append (account : Account history network) (output : Address) :
    history.directed output ++ (network.held (output.unit, .output)).filter (·.comesFrom output) =
      history.issued.filter (·.comesFrom output) := by
  have managers := congrArg (List.filter (·.comesFrom output))
    (account.managers (output.unit, .output))
  rw [List.filter_append, List.filter_filter] at managers
  refine managers.trans (List.filter_congr fun instruction _ => ?_)
  cases comes : instruction.comesFrom output with
  | false => rfl
  | true => simpa using Instruction.concerns_output_iff.mpr ⟨output, rfl, comes⟩

/-- The slot with the rank that an instruction has among all that go to an input is its own. -/
theorem Account.slot_of_issued (account : Account history network) {input : Address}
    {index : Nat} {instruction : Instruction} {slot : Slot}
    (issued : history.issued[index]? = some instruction)
    (goes : instruction.goesTo input = true)
    (there : (window history network input)[
      (history.issued.take index).countP (·.goesTo input)]? = some slot) :
    slot.asOpened = instruction.slot := by
  have opened := congrArg (·[(history.issued.take index).countP (·.goesTo input)]?)
    (account.windows input)
  have ranked := getElem?_filter_countP (·.goesTo input) issued goes
  simp only [List.getElem?_map, there, Option.map_some] at opened
  obtain ⟨other, found, same⟩ := Option.map_eq_some_iff.mp opened.symm
  rw [← account.opened_append, List.getElem?_append_left (List.getElem?_eq_some_iff.mp found).1,
    found, Option.some.injEq] at ranked
  rw [← same, ranked]

/-! ## Values by position -/

/-- The slot of an instruction belongs to an output exactly if the instruction moves a value out
of it. -/
theorem isFrom_slot {instruction : Instruction} {output : Address}
    (real : output.isNull = false) :
    instruction.slot.isFrom output = instruction.comesFrom output := by
  cases instruction with
  | move source destination =>
    cases isNull : source.isNull with
    | false =>
      simp [Instruction.slot, Address.registration, isNull, Slot.ofRegistration,
        Instruction.comesFrom, real, Bool.beq_eq_decide_eq]
    | true =>
      have apart : source ≠ output := by
        rintro rfl
        rw [real] at isNull
        cases isNull
      have marker : (Instruction.move source destination).slot = .marker := by
        simp [Instruction.slot, Address.registration, isNull, Slot.ofRegistration]
      rw [marker, Instruction.comesFrom, beq_eq_false_iff_ne.mpr apart, Bool.and_false]
      rfl
  | immediate value destination => rfl
  | jump target => rfl

theorem isFrom_asOpened (slot : Slot) (output : Address) :
    slot.asOpened.isFrom output = slot.isFrom output := by
  cases slot <;> rfl

/-- The number of slots that belong to an output in front of the slot of an instruction. -/
theorem Account.countP_window (account : Account history network) {output input : Address}
    (real : output.isNull = false) {index : Nat}
    (opened : (history.issued.take index).countP (·.goesTo input) ≤
      (window history network input).length) :
    ((window history network input).take
        ((history.issued.take index).countP (·.goesTo input))).countP (·.isFrom output) =
      (history.issued.take index).countP fun instruction =>
        instruction.comesFrom output && instruction.goesTo input := by
  have length : (window history network input).length = (history.opened input).length := by
    rw [← List.length_map Slot.asOpened, account.windows, List.length_map]
  have front : (history.opened input).take
      ((history.issued.take index).countP (·.goesTo input)) =
        (history.issued.take index).filter (·.goesTo input) := by
    rw [filter_take_eq, ← account.opened_append, List.take_append_of_le_length (length ▸ opened)]
  have slots := congrArg (List.take ((history.issued.take index).countP (·.goesTo input)))
    (account.windows input)
  rw [← List.map_take, ← List.map_take, front] at slots
  have counts := congrArg (List.countP (·.isFrom output)) slots
  rw [List.countP_map, List.countP_map, List.countP_filter] at counts
  refine Eq.trans (List.countP_congr fun slot _ => ?_) (counts.trans
    (List.countP_congr fun instruction _ => ?_))
  · rw [Function.comp_apply, isFrom_asOpened]
  · rw [Function.comp_apply, isFrom_slot real]

/-- The destinations of the packets that an output sent are those of the moves issued for it. -/
theorem Account.sent_prefix (account : Account history network) (output : Address) :
    (history.sentFrom output).map Packet.destination <+:
      (history.issued.filter (·.comesFrom output)).map Instruction.destination := by
  rw [← account.directed_append, List.map_append, account.destinations, List.append_assoc]
  exact List.prefix_append _ _

/-- The packet with the rank of a move goes where the move says. -/
theorem Account.destination_of_sent (account : Account history network) {output : Address}
    {index : Nat} {instruction : Instruction} {packet : Packet}
    (issued : history.issued[index]? = some instruction)
    (comes : instruction.comesFrom output = true)
    (sent : (history.sentFrom output)[
      (history.issued.take index).countP (·.comesFrom output)]? = some packet) :
    packet.destination = instruction.destination := by
  obtain ⟨inside, -⟩ := List.getElem?_eq_some_iff.mp sent
  obtain ⟨rest, whole⟩ := account.sent_prefix output
  have ranked := getElem?_filter_countP (·.comesFrom output) issued comes
  have tag := congrArg (·[(history.issued.take index).countP (·.comesFrom output)]?) whole
  simp only [List.getElem?_map, ranked, Option.map_some] at tag
  rw [List.getElem?_append_left (by rwa [List.length_map]), List.getElem?_map, sent,
    Option.map_some, Option.some.injEq] at tag
  exact tag

/-- The destinations of the moves from an output before an index. -/
theorem destinations_before (issued : List Instruction) (output : Address) (index : Nat) :
    ((issued.filter (·.comesFrom output)).map Instruction.destination).take
        ((issued.take index).countP (·.comesFrom output)) =
      ((issued.take index).filter (·.comesFrom output)).map Instruction.destination := by
  rw [filter_take_eq, List.map_take]

theorem countP_destinations_before (issued : List Instruction) {output input : Address}
    (real : input.isNull = false) (index : Nat) :
    (((issued.take index).filter (·.comesFrom output)).map Instruction.destination).countP
        (· = input) =
      (issued.take index).countP fun instruction =>
        instruction.comesFrom output && instruction.goesTo input := by
  rw [List.countP_map, List.countP_filter]
  refine List.countP_congr fun other _ => ?_
  simp [Instruction.goesTo, real, and_comm]

/-- Among the packets before that of a move, those for an input are as many as the moves there
before it. -/
theorem Account.countP_sent (account : Account history network) {output input : Address}
    (real : input.isNull = false) {index : Nat}
    (sent : (history.issued.take index).countP (·.comesFrom output) ≤
      (history.sentFrom output).length) :
    ((history.sentFrom output).take
        ((history.issued.take index).countP (·.comesFrom output))).countP
          (·.destination = input) =
      (history.issued.take index).countP fun instruction =>
        instruction.comesFrom output && instruction.goesTo input := by
  obtain ⟨rest, whole⟩ := account.sent_prefix output
  rw [← countP_destinations_before history.issued real, ← destinations_before, ← whole,
    List.take_append_of_le_length (by rwa [List.length_map]), ← List.map_take, List.countP_map]
  rfl

/-- A packet with a rank among those that an output sent to an input has the rank of the move
that it was sent for among all packets of the output. -/
theorem Account.sent_of_rank (account : Account history network) {output input : Address}
    {index : Nat} {instruction : Instruction} {packet : Packet}
    (issued : history.issued[index]? = some instruction)
    (comes : instruction.comesFrom output = true) (goes : instruction.goesTo input = true)
    (ranked : ((history.sentFrom output).filter (·.destination = input))[
      (history.issued.take index).countP fun instruction =>
        instruction.comesFrom output && instruction.goesTo input]? = some packet) :
    (history.sentFrom output)[(history.issued.take index).countP (·.comesFrom output)]? =
      some packet := by
  obtain ⟨real, destination⟩ := Instruction.goesTo_iff.mp goes
  have inside : (history.issued.take index).countP (·.comesFrom output) <
      (history.sentFrom output).length := by
    by_contra short
    have short := Nat.le_of_not_lt short
    have early : (history.sentFrom output).map Packet.destination <+:
        ((history.issued.take index).filter (·.comesFrom output)).map
          Instruction.destination := by
      rw [← destinations_before]
      refine List.prefix_take_iff.mpr ⟨account.sent_prefix output, ?_⟩
      rwa [List.length_map]
    have few := early.sublist.countP_le (p := (· = input))
    rw [countP_destinations_before history.issued real, List.countP_map] at few
    have many := (List.getElem?_eq_some_iff.mp ranked).1
    rw [← List.countP_eq_length_filter] at many
    exact absurd few (Nat.not_le_of_lt many)
  have isSent := List.getElem?_eq_getElem inside
  have goesThere := account.destination_of_sent issued comes isSent
  have again := getElem?_filter_countP (fun packet => decide (packet.destination = input)) isSent
    (by simpa using goesThere.trans destination)
  rw [account.countP_sent real (Nat.le_of_lt inside), ranked, Option.some.injEq] at again
  rw [isSent, again]

/-- The value that fills the slot of a move is the one with the rank of the move among all values
of its source. -/
theorem Account.value_of_arrived (account : Account history network) {source input : Address}
    {index : Nat} {value : Word} (issued : history.issued[index]? = some (.move source input))
    (real : input.isNull = false)
    (there : (window history network input)[
      (history.issued.take index).countP (·.goesTo input)]? = some (.arrived source value)) :
    (history.produced source)[(history.issued.take index).countP (·.comesFrom source)]? =
      some value := by
  have goes : (Instruction.move source input).goesTo input = true :=
    Instruction.goesTo_iff.mpr ⟨real, rfl⟩
  have realSource : source.isNull = false := by
    have own := account.slot_of_issued issued goes there
    cases isNull : source.isNull with
    | false => rfl
    | true => simp [Instruction.slot, Address.registration, isNull, Slot.ofRegistration] at own
  have comes : (Instruction.move source input).comesFrom source = true :=
    Instruction.comesFrom_move_iff.mpr ⟨realSource, rfl⟩
  have opened := Nat.le_of_lt (List.getElem?_eq_some_iff.mp there).1
  have ranked := getElem?_filter_countP (·.isFrom source) there (by simp)
  obtain ⟨missing, fills⟩ := account.fills source input
  rw [account.countP_window realSource opened, fills] at ranked
  have isArrived : ((history.arrivedOn (source, input)).map
      fun packet => Slot.arrived source packet.value)[
        (history.issued.take index).countP fun instruction =>
          instruction.comesFrom source && instruction.goesTo input]? =
        some (.arrived source value) := by
    rw [List.getElem?_append] at ranked
    split at ranked
    · exact ranked
    · have awaiting := (List.mem_replicate.mp (List.mem_of_getElem? ranked)).2
      cases awaiting
  rw [List.getElem?_map] at isArrived
  obtain ⟨packet, found, same⟩ := Option.map_eq_some_iff.mp isArrived
  have onRoute : ((history.sentFrom source).filter (·.destination = input))[
      (history.issued.take index).countP fun instruction =>
        instruction.comesFrom source && instruction.goesTo input]? = some packet := by
    rw [account.routes source input real,
      List.getElem?_append_left (List.getElem?_eq_some_iff.mp found).1, found]
  have sent := account.sent_of_rank issued comes goes onRoute
  rw [account.values, List.getElem?_append_left (by
    rw [List.length_map]
    exact (List.getElem?_eq_some_iff.mp sent).1), List.getElem?_map, sent]
  simpa using same

end Network
end MoveMachine
