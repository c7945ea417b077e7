import MoveMachine.Proofs.IssueOrder

/-!
# Every value reaches the slot of its own move

The match between a value and its move is nowhere stored. It emerges from the
order in which instructions, values and packets are queued, whatever the units
stall on (`Machine.values_reach_own_slots`). What the rounds of a run did is read
off the machines at which they began (`Machine.Log.chronicle`): the slots of an
input are those of the instructions issued for it, in the order of issue, and the
slot of a move is filled with the value that the kernel of its source pushed there
with the rank of the move (`Network.Orderly`). Values leave an input in the order of
its slots, and the results are what leaves the inputs of the control unit
(`Network.Collects`).
-/

set_option autoImplicit false

namespace MoveMachine

/-- All slots ever opened in an input: the retired ones, as they were then, followed by those still
there. -/
def Chronicle.window (chronicle : Chronicle) (network : Network) (input : Address) : List Slot :=
  chronicle.retired input ++ network.slots input

namespace Network

/-- What a chronicle from a load on says about slots and values, when certain instructions were
issued. -/
structure Orderly (issued : List Instruction) (chronicle : Chronicle) (network : Network) :
    Prop where
  /-- The instructions for an input that its manager has applied, and those that it still holds, are
  the instructions issued for the input, in the order of issue. -/
  applied : ∀ input, (chronicle.applied (input.unit, .input)).filter (·.goesTo input) ++
      (network.held (input.unit, .input)).filter (·.goesTo input) =
    issued.filter (·.goesTo input)
  /-- Those that it has applied have opened one slot each. -/
  opened : ∀ input, chronicle.opened input =
    ((chronicle.applied (input.unit, .input)).filter (·.goesTo input)).map Instruction.slot
  /-- The slots were retired in the order in which they were opened, or they are still there in that
  order. -/
  windows : ∀ input, (chronicle.window network input).map Slot.asOpened = chronicle.opened input
  /-- The slot of an immediate move holds its constant. -/
  constants : ∀ (index : Nat) (value : Word) (input : Address) (slot : Slot),
    issued[index]? = some (.immediate value input) → input.isNull = false →
    (chronicle.window network input)[Instruction.rank issued index (·.goesTo input)]? = some slot →
    slot = .constant value
  /-- The slot of a move from nowhere is a marker. -/
  markers : ∀ (index : Nat) (source input : Address) (slot : Slot),
    issued[index]? = some (.move source input) → input.isNull = false → source.isNull = true →
    (chronicle.window network input)[Instruction.rank issued index (·.goesTo input)]? = some slot →
    slot = .marker
  /-- The slot of any other move awaits the value that the kernel pushed into its source with the
  rank of the move, or holds it. -/
  values : ∀ (index : Nat) (source input : Address) (slot : Slot),
    issued[index]? = some (.move source input) → input.isNull = false → source.isNull = false →
    (chronicle.window network input)[Instruction.rank issued index (·.goesTo input)]? = some slot →
    slot = .awaiting source ∨ ∃ value, slot = .arrived source value ∧
      (chronicle.pushed source)[Instruction.rank issued index (·.comesFrom source)]? = some value
  /-- The slots of an input that are for one source were filled from the oldest on, each by one
  delivery. -/
  filled : ∀ source input, ∃ missing, (chronicle.window network input).filter (·.isFrom source) =
    (chronicle.filled (source, input)).map (.arrived source) ++
      List.replicate missing (.awaiting source)
  /-- No slot was retired before it had its value. -/
  retired : ∀ input, ∀ slot ∈ chronicle.retired input, slot.isOpen = false
  /-- What was pushed into an output has left it, in that order, or is still there. -/
  departed : ∀ output, chronicle.pushed output =
    (chronicle.departed output).map Packet.value ++ network.values output
  /-- What has left an output for an input has filled slots there, in that order, or is on its
  way. -/
  delivered : ∀ output input, input.isNull = false →
    ((chronicle.departed output).filter (·.destination = input)).map Packet.value =
      chronicle.filled (output, input) ++
        (network.shared.interconnect.inFlight.filter (·.route = (output, input))).map Packet.value
  /-- A value that is moved nowhere is sent nowhere. -/
  nowhere : ∀ (index : Nat) (source : Address) (packet : Packet),
    issued[index]? = some (.move source .null) → source.isNull = false →
    (chronicle.departed source)[Instruction.rank issued index (·.comesFrom source)]? =
      some packet →
    packet.destination = .null
  /-- What is sent nowhere fills no slot. -/
  vanished : ∀ source input, input.isNull = true → chronicle.filled (source, input) = []

/-- Whether values, with the inputs that they left, are all that has left the inputs of a unit,
interleaved, and whether these values are the results. -/
structure Collects (control : UInt8) (chronicle : Chronicle) (entries : List (Address × Word))
    (results : List Word) : Prop where
  results : results = entries.map (·.2)
  inputs : ∀ entry ∈ entries, entry.1.unit = control
  each : ∀ input : Address, input.unit = control →
    (entries.filter (·.1 = input)).map (·.2) = (chronicle.retired input).filterMap Slot.value?

/-- The values that have left the inputs of a unit, with their inputs. -/
def History.leavingFrom (history : History) (unit : UInt8) : List (Address × Word) :=
  (history.retired.filter (·.1.unit = unit)).filterMap fun entry =>
    entry.2.value?.map (entry.1, ·)

variable {program : List Instruction} {depth : Nat} {start network : Network} {history : History}

/-- Packets without a destination do not arrive. -/
theorem Evolves.arrived_real (blank : start.Blank)
    (evolves : Evolves program depth start history network) :
    ∀ packet ∈ history.arrived, packet.destination.isNull = false := by
  induction evolves with
  | start => simp [History.arrived]
  | step earlier happens ih =>
    intro packet member
    rw [History.arrived_append, List.mem_append, History.arrived_singleton] at member
    rcases member with before | now
    · exact ih packet before
    · cases happens with
      | arrive flying =>
        obtain rfl := List.mem_singleton.mp now
        refine (earlier.account blank).flying packet ?_
        rw [flying]
        exact List.mem_append_right _ List.mem_cons_self
      | issue | halt | fetch | openSlot | direct | clear | fire | fail | send | write =>
        simp at now

/-- What the events of a history did is in order. -/
theorem Evolves.orderly (blank : start.Blank)
    (evolves : Evolves program depth start history network) :
    Orderly (Instruction.firstIssued program network.issued) history.chronicle network := by
  have account := evolves.account blank
  rw [← (evolves.issued_eq blank).1]
  have own {index : Nat} {instruction : Instruction} {input : Address} {slot : Slot}
      (issued : history.issued[index]? = some instruction) (goes : instruction.goesTo input = true)
      (there : (history.chronicle.window network input)[
        Instruction.rank history.issued index (·.goesTo input)]? = some slot) :
      slot.asOpened = instruction.slot :=
    account.slot_of_issued issued goes there
  constructor
  case applied => exact account.opened_append
  case opened => exact fun _ => rfl
  case windows => exact account.windows
  case constants =>
    intro index value input slot issued real there
    have kind := own issued (Instruction.goesTo_iff.mpr ⟨real, rfl⟩) there
    cases slot with
    | constant other => exact kind
    | awaiting | arrived | marker => cases kind
  case markers =>
    intro index source input slot issued real isNull there
    have kind := own issued (Instruction.goesTo_iff.mpr ⟨real, rfl⟩) there
    simp only [Instruction.slot, Address.registration, isNull, if_true,
      Slot.ofRegistration] at kind
    cases slot with
    | marker => rfl
    | awaiting | arrived | constant => cases kind
  case values =>
    intro index source input slot issued real realSource there
    have kind := own issued (Instruction.goesTo_iff.mpr ⟨real, rfl⟩) there
    simp only [Instruction.slot, Address.registration, realSource, Bool.false_eq_true, if_false,
      Slot.ofRegistration] at kind
    cases slot with
    | awaiting sender => exact .inl kind
    | arrived sender value =>
      obtain rfl : sender = source := Slot.awaiting.inj kind
      exact .inr ⟨value, rfl, account.value_of_arrived issued real there⟩
    | constant | marker => cases kind
  case filled =>
    intro source input
    obtain ⟨missing, window⟩ := account.fills source input
    refine ⟨missing, window.trans ?_⟩
    rw [History.chronicle, List.map_map]
    rfl
  case retired =>
    intro input slot member
    obtain ⟨entry, retired, rfl⟩ := List.mem_map.mp member
    exact account.retired entry (List.mem_filter.mp retired).1
  case departed => exact account.values
  case delivered =>
    intro output input real
    have routes := congrArg (List.map Packet.value) (account.routes output input real)
    rwa [List.map_append] at routes
  case nowhere =>
    intro index source packet issued real sent
    exact account.destination_of_sent issued (Instruction.comesFrom_move_iff.mpr ⟨real, rfl⟩) sent
  case vanished =>
    intro source input isNull
    have nothing : history.arrivedOn (source, input) = [] := by
      refine List.filter_eq_nil_iff.mpr fun packet member => ?_
      have real := evolves.arrived_real blank packet member
      simp only [decide_eq_true_eq]
      intro isRoute
      have destination : packet.destination = input := congrArg Prod.snd isRoute
      rw [destination, isNull] at real
      cases real
    exact congrArg (List.map Packet.value) nothing

/-- What has left one input of a unit, among what has left the unit. -/
theorem leavingFrom_input {control : UInt8} {input : Address} (entries : List (Address × Slot))
    (own : input.unit = control) :
    (((entries.filter (·.1.unit = control)).filterMap fun entry =>
        entry.2.value?.map (entry.1, ·)).filter (·.1 = input)).map (·.2) =
      ((entries.filter (·.1 = input)).map (·.2)).filterMap Slot.value? := by
  induction entries with
  | nil => rfl
  | cons entry later ih =>
    obtain ⟨place, slot⟩ := entry
    by_cases here : place = input
    · subst here
      cases value : slot.value? <;> simpa [own, value] using ih
    · by_cases ofUnit : place.unit = control
      · cases value : slot.value? <;> simpa [ofUnit, value, here] using ih
      · simpa [ofUnit, here] using ih

theorem Evolves.collects {control : UInt8} (blank : start.Blank)
    (sole : start.SoleControl control) (evolves : Evolves program depth start history network) :
    Collects control history.chronicle (history.leavingFrom control)
      network.shared.results.toList := by
  refine ⟨?_, ?_, ?_⟩
  · rw [evolves.results blank sole, History.leavingUnit, History.leavingFrom, List.map_filterMap]
    refine List.filterMap_congr fun entry _ => ?_
    cases entry.2.value? <;> rfl
  · intro entry member
    obtain ⟨origin, retired, value⟩ := List.mem_filterMap.mp member
    obtain ⟨word, -, rfl⟩ := Option.map_eq_some_iff.mp value
    simpa using (List.mem_filter.mp retired).2
  · intro input own
    exact leavingFrom_input history.retired own

end Network

namespace Machine

open Network

/-- Every value reaches the slot of its own move, in every state that a machine comes to after
loading a program: whatever the rounds on the way were, what they did is in order, and the results
interleave what has left the inputs of the control unit. -/
theorem values_reach_own_slots {topology : Topology} {config : Config}
    {built before loaded machine : Machine} {image : Image} {program : List Instruction}
    (builds : ofTopology topology config = .ok built) (session : Session built before)
    (loads : before.load image = .ok loaded) (decodes : image.program = .ok program)
    (runs : Runs loaded machine) :
    (∃ log, Logs loaded log machine) ∧
      ∀ log, Logs loaded log machine →
        log.issued = Instruction.firstIssued program machine.issued ∧
        Orderly log.issued log.chronicle machine.network ∧
        ∀ control description, topology.unitNumbered? control = some description →
          description.type = .control →
          ∃ entries, Collects control log.chronicle entries machine.shared.results.toList := by
  obtain ⟨checked, -⟩ := ofTopology_spec builds
  have fresh := session.fresh builds loads decodes
  refine ⟨runs.exists_logs, fun log logs => ?_⟩
  have issued : log.issued = Instruction.firstIssued program machine.issued :=
    fresh.log_eq logs.issues
  obtain ⟨-, history, evolves, does⟩ := fresh.logged logs
  rw [issued, ← does]
  refine ⟨rfl, evolves.orderly fresh.blank, fun control description described type => ?_⟩
  exact ⟨_, evolves.collects fresh.blank (fresh.follows.soleControl checked described type)⟩

/-- What the five rounds of a run do to the value that is passed on. -/
theorem relay_logs :
    ∃ (built loaded : Machine) (log : Log),
      ofTopology (.relay ⟨2, by decide, by decide⟩) .default = .ok built ∧
      built.load (.ofProgram Instruction.relayed) = .ok loaded ∧
      Logs loaded log loaded.run.1 ∧ log.issued = Instruction.relayed ∧
      log.chronicle.pushed ⟨1, 0⟩ = [.ofNat 7] ∧
      log.chronicle.filled (⟨1, 0⟩, ⟨0, 0⟩) = [.ofNat 7] ∧
      log.chronicle.retired ⟨0, 0⟩ = [.arrived ⟨1, 0⟩ (.ofNat 7)] ∧
      loaded.run.1.shared.results.toList = [.ofNat 7] :=
  ⟨_, _, _, rfl, rfl, Logs.loaded.round.round.round.round.round, rfl, rfl, rfl, rfl, rfl⟩

theorem relay_values_reach_own_slots :
    ∃ (built loaded : Machine) (log : Log),
      ofTopology (.relay ⟨2, by decide, by decide⟩) .default = .ok built ∧
      built.load (.ofProgram Instruction.relayed) = .ok loaded ∧
      Logs loaded log loaded.run.1 ∧ log.issued = Instruction.relayed ∧
      log.chronicle.pushed ⟨1, 0⟩ = [.ofNat 7] ∧
      log.chronicle.filled (⟨1, 0⟩, ⟨0, 0⟩) = [.ofNat 7] ∧
      log.chronicle.retired ⟨0, 0⟩ = [.arrived ⟨1, 0⟩ (.ofNat 7)] ∧
      Orderly log.issued log.chronicle loaded.run.1.network ∧
      ∃ entries, Collects 0 log.chronicle entries [.ofNat 7] := by
  obtain ⟨built, loaded, log, builds, loads, logs, issued, pushed, filled, retired, results⟩ :=
    relay_logs
  obtain ⟨-, orderly, collects⟩ :=
    (values_reach_own_slots builds .built loads Image.program_relayed Runs.loaded.run).2 log logs
  rw [results] at collects
  exact ⟨built, loaded, log, builds, loads, logs, issued, pushed, filled, retired, orderly,
    collects 0 _ rfl rfl⟩

end Machine
end MoveMachine
