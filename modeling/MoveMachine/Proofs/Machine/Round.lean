import MoveMachine.Proofs.Machine.View

/-!
# Rounds in the network

A round of a machine that suits its program is explained by events of its
network (`Machine.round_explained`): the issue of an instruction, the steps of
all units in turn, and the arrivals. What these events did is read off the moments at
which the units begin their steps and off the slots before and after the delivery
(`Machine.chronicle`).
-/

set_option autoImplicit false

namespace MoveMachine
namespace Machine

open Network

variable {program : List Instruction} {start : Network} {machine : Machine}

/-! ## Units -/

/-- The steps of all units are explained by events that did what is read off their moments. -/
theorem stepUnits_explained (suits : machine.Suits program) (units done : List ProcessingUnit)
    (shared : Shared) (keeps : machine.Resembles (worked machine done (units, shared)))
    (reachable : (worked machine done (units, shared)).network.Reachable program
      machine.topology.depth.value) :
    Explained program machine.topology.depth.value (worked machine done (units, shared)).network
      (History.Does (.join ((unitMoments units shared).map ProcessingUnit.chronicle)))
      (network ∘ worked machine done) (machine.Resembles ∘ worked machine done)
      (stepUnits units shared) := by
  induction units generalizing done shared with
  | nil => exact ⟨keeps, [], .start, rfl, List.forall_mem_nil _⟩
  | cons unit later ih =>
    have suited := suits.of_resembles keeps
    have member : unit ∈ (worked machine done (unit :: later, shared)).units := by
      simp [worked]
    have seated (other : ProcessingUnit) (sharing : Shared) (same : other.number = unit.number) :=
      network_seat (worked machine done (unit :: later, shared)) other sharing suited.distinct same
        rfl
    have first := ProcessingUnit.step_explained (suited.fitted unit member)
      (suited.serves unit member) (seated unit shared rfl ▸ reachable)
    rw [← seated unit shared rfl] at first
    have seen : Explained program machine.topology.depth.value
        (worked machine done (unit :: later, shared)).network
        (History.Does (ProcessingUnit.chronicle (unit, shared)))
        ((network ∘ worked machine done) ∘ Prod.map (· :: later) id)
        ((machine.Resembles ∘ worked machine done) ∘ Prod.map (· :: later) id)
        (unit.step shared) := by
      refine first.mono (fun state same => ?_) (fun state same => ?_) fun _ _ _ => id
      · exact seated state.1 state.2 (ProcessingUnit.number_eq_of_reset_eq same)
      · refine keeps.trans ⟨rfl, rfl, rfl, ?_⟩
        have shape : state.1.reset = unit.reset := same
        simp [worked, shape]
    rw [stepUnits, unitMoments]
    generalize unit.step shared = stepped at seen ⊢
    obtain ⟨⟨kept, sharing⟩, report⟩ := stepped
    cases report with
    | error fault =>
      simp only [List.map_singleton, Chronicle.join_singleton]
      exact seen
    | ok progressed =>
      have moved : worked machine done ∘ Prod.map (kept :: ·) id =
          worked machine (done ++ [kept]) := by
        funext state
        simp [worked]
      have here : worked machine done (kept :: later, sharing) =
          worked machine (done ++ [kept]) (later, sharing) := congrFun moved (later, sharing)
      refine Explained.cons seen (fun events evolves keeps => ?_) fun _ _ => History.Does.append
      have reached := reachable.trans evolves
      rw [Function.comp_apply, here] at keeps reached
      rw [Function.comp_assoc, Function.comp_assoc, moved, Function.comp_apply, here]
      exact ih (done ++ [kept]) sharing keeps reached

/-- The work of the units is explained by events that did what is read off their moments. -/
theorem work_explained (suits : machine.Suits program)
    (reachable : machine.network.Reachable program machine.topology.depth.value) :
    Explained program machine.topology.depth.value machine.network
      (History.Does (.join ((unitMoments machine.units machine.shared).map
        ProcessingUnit.chronicle)))
      network machine.Resembles machine.work :=
  (stepUnits_explained suits machine.units [] machine.shared (.refl machine) reachable).map

/-! ## Issue -/

/-- The manager that a target names. -/
def post (target : Address × Side) : UInt8 × Side := (target.1.unit, target.2)

/-- An instruction concerns the managers of its targets. -/
theorem concerns_iff {instruction : Instruction} {place : UInt8 × Side} :
    instruction.concerns place = true ↔ place ∈ (targets instruction).map post := by
  obtain ⟨unit, side⟩ := place
  have flip (address : Address) : unit = address.unit ↔ address.unit = unit := eq_comm
  cases instruction with
  | move source destination =>
    cases fromNull : source.isNull <;> cases toNull : destination.isNull <;> cases side <;>
      simp [Instruction.concerns, Effect.of?, targets, post, fromNull, toNull, flip]
  | immediate value destination =>
    cases toNull : destination.isNull <;> cases side <;>
      simp [Instruction.concerns, Effect.of?, targets, post, toNull, flip]
  | jump target => simp [Instruction.concerns, Effect.of?, targets]

theorem targets_nodup (instruction : Instruction) : ((targets instruction).map post).Nodup := by
  cases instruction with
  | move source destination =>
    cases fromNull : source.isNull <;> cases toNull : destination.isNull <;>
      simp [targets, post, fromNull, toNull]
  | immediate value destination => cases toNull : destination.isNull <;> simp [targets, toNull]
  | jump target => simp [targets]

/-- If all managers concerned exist, they are asked whether they have room. -/
theorem canIssue_of_present {units : List ProcessingUnit} {targets : List (Address × Side)}
    (present : ∀ target ∈ targets, (unitNumbered? units target.1.unit).isSome = true) :
    canIssue units targets = .ok (targets.all fun target =>
      (unitNumbered? units target.1.unit).any fun unit => (unit.manager target.2).canAccept) := by
  induction targets with
  | nil => rfl
  | cons target later ih =>
    obtain ⟨unit, found⟩ := Option.isSome_iff_exists.mp (present target List.mem_cons_self)
    have rest := ih fun other member => present other (List.mem_cons_of_mem _ member)
    simp only [canIssue, found, rest, List.all_cons, Option.any_some]
    rfl

/-- What a manager with room receives is all that changes in the network. -/
theorem issueTo_spec (instruction : Instruction) {target : Address × Side} {unit : ProcessingUnit}
    (suits : machine.Suits program)
    (found : unitNumbered? machine.units target.1.unit = some unit)
    (room : (machine.network.inbox (post target)).length < machine.topology.depth.value) :
    ∃ units, issueTo instruction target.1 target.2 machine.units = .ok units ∧
      machine.Resembles { machine with units } ∧
      { machine with units }.network = { machine.network with
        inbox := Function.update machine.network.inbox (post target)
          (machine.network.inbox (post target) ++ [instruction]) } := by
  obtain ⟨done, later, split⟩ := split_of_unitNumbered? found
  have number := number_of_unitNumbered? found
  have fitted := suits.fitted unit (by simp [split])
  have inbox : machine.network.inbox (post target) = (unit.manager target.2).inbox := by
    simp [network, post, found]
  have accepts : (unit.manager target.2).canAccept = true := by
    rw [Manager.canAccept, fitted.capacity, ← inbox]
    simpa using room
  have distinct := suits.distinct
  rw [split] at distinct
  let received : Manager := { unit.manager target.2 with
    inbox := (unit.manager target.2).inbox ++ [instruction] }
  have same : (unit.setManager target.2 received).number = unit.number := by
    cases target.2 <;> rfl
  refine ⟨done ++ unit.setManager target.2 received :: later, ?_, ?_, ?_⟩
  · have altered := alterUnit_split distinct fun _ => unit.setManager target.2 received
    simp only [issueTo, found, ProcessingUnit.receive, Manager.receive, accepts, if_true,
      Except.map]
    rw [split, ← number, altered]
  · refine ⟨rfl, rfl, rfl, ?_⟩
    have shape : (unit.setManager target.2 received).reset = unit.reset := by
      cases side : target.2 <;>
        simp [ProcessingUnit.setManager, ProcessingUnit.reset, received, side, Manager.reset,
          ProcessingUnit.manager]
    simp [split, shape]
  · have seated : machine.network.seat unit machine.shared = machine.network := by
      rw [← network_seat machine unit machine.shared distinct rfl split, ← split]
    have becomes := network_seat machine _ machine.shared distinct same split
    have place : (unit.number, target.2) = post target := by rw [post, number]
    have pending : Function.update machine.network.pending (post target) received.pending =
        machine.network.pending := by
      rw [Function.update_eq_self_iff]
      simp [network, post, found, received]
    rw [seat_setManager, seated, place, pending] at becomes
    rw [inbox]
    exact becomes

/-- Managers with room receive an instruction together. -/
theorem issueToAll_spec {instruction : Instruction} (targets : List (Address × Side))
    (suits : machine.Suits program) (apart : (targets.map post).Nodup)
    (present : ∀ target ∈ targets, (unitNumbered? machine.units target.1.unit).isSome = true)
    (room : ∀ target ∈ targets,
      (machine.network.inbox (post target)).length < machine.topology.depth.value) :
    ∃ units, issueToAll instruction targets machine.units = .ok units ∧
      machine.Resembles { machine with units } ∧
      { machine with units }.network = { machine.network with
        inbox := fun place =>
          if place ∈ targets.map post then machine.network.inbox place ++ [instruction]
          else machine.network.inbox place } := by
  induction targets generalizing machine with
  | nil => exact ⟨machine.units, rfl, .refl machine, by simp⟩
  | cons target later ih =>
    obtain ⟨unit, found⟩ := Option.isSome_iff_exists.mp (present target List.mem_cons_self)
    obtain ⟨fresh, apartLater⟩ := List.nodup_cons.mp apart
    obtain ⟨units, issued, same, becomes⟩ :=
      issueTo_spec instruction suits found (room target List.mem_cons_self)
    have elsewhere (other : Address × Side) (member : other ∈ later) : post other ≠ post target :=
      fun equal => fresh (equal ▸ List.mem_map_of_mem member)
    obtain ⟨all, issuedAll, sameAll, becomesAll⟩ := ih (suits.of_resembles same) apartLater
      (fun other member => by
        rw [unitNumbered?_isSome_iff, same.numbers, ← unitNumbered?_isSome_iff]
        exact present other (List.mem_cons_of_mem _ member))
      (fun other member => by
        rw [becomes]
        simpa [elsewhere other member] using room other (List.mem_cons_of_mem _ member))
    refine ⟨all, ?_, same.trans sameAll, ?_⟩
    · simp only [issueToAll, issued]
      exact issuedAll
    · refine becomesAll.trans ?_
      rw [becomes]
      refine Network.ext rfl rfl rfl rfl ?_ rfl rfl rfl rfl rfl
      funext place
      by_cases here : place = post target
      · subst here
        simp only [List.map_cons, List.mem_cons, fresh, or_false, if_true, if_false,
          Function.update_self]
      · simp only [List.map_cons, List.mem_cons, here, false_or, Function.update_of_ne here]

/-- A move is issued to all managers that it concerns, if they all have room, and otherwise to
none. -/
theorem issue_cases {instruction : Instruction} (suits : machine.Suits program)
    (member : instruction ∈ program) :
    machine.issue instruction = .idle machine ∨
      ∃ units, machine.issue instruction =
          .progress { machine with units, pc := machine.pc + 1, issued := machine.issued + 1 } ∧
        machine.Resembles { machine with units } ∧
        (∀ place, instruction.concerns place = true →
          (machine.network.inbox place).length < machine.topology.depth.value) ∧
        { machine with units }.network = { machine.network with
          inbox := fun place =>
            if instruction.concerns place then machine.network.inbox place ++ [instruction]
            else machine.network.inbox place } := by
  have present (target : Address × Side) (isTarget : target ∈ targets instruction) :
      (unitNumbered? machine.units target.1.unit).isSome = true :=
    suits.present instruction member (post target)
      (concerns_iff.mpr (List.mem_map_of_mem isTarget))
  rw [issue]
  simp only [canIssue_of_present present]
  cases accepted : (targets instruction).all fun target =>
      (unitNumbered? machine.units target.1.unit).any fun unit =>
        (unit.manager target.2).canAccept with
  | false => exact .inl rfl
  | true =>
    have room (target : Address × Side) (isTarget : target ∈ targets instruction) :
        (machine.network.inbox (post target)).length < machine.topology.depth.value := by
      have accepts := List.all_eq_true.mp accepted target isTarget
      obtain ⟨unit, found, hasRoom⟩ := (Option.any_eq_true _ _).mp accepts
      obtain ⟨done, later, split⟩ := split_of_unitNumbered? found
      have fitted := suits.fitted unit (by simp [split])
      rw [Manager.canAccept, fitted.capacity] at hasRoom
      simpa [network, post, found] using hasRoom
    obtain ⟨units, issued, same, becomes⟩ :=
      issueToAll_spec (targets instruction) suits (targets_nodup instruction) present room
    refine .inr ⟨units, by rw [issued]; rfl, same, fun place concerned => ?_, ?_⟩
    · obtain ⟨target, isTarget, rfl⟩ := List.mem_map.mp (concerns_iff.mp concerned)
      exact room target isTarget
    · simp only [becomes, concerns_iff]

/-- The next instruction is issued by one event, if at all. -/
theorem issue_explained {instruction : Instruction} (suits : machine.Suits program)
    (running : machine.halted = false) (next : program[machine.pc]? = some instruction)
    (goesOn : instruction.next machine.network.pc = machine.pc + 1) :
    Explained program machine.topology.depth.value machine.network (History.Of .dispatch) network
      machine.Resembles (machine.issue instruction) := by
  rcases issue_cases suits (List.mem_of_getElem? next) with
    idle | ⟨units, issues, same, room, becomes⟩
  · rw [idle]
    exact Explained.idle (.refl machine) false
  · rw [issues]
    refine Explained.event (.issue instruction) ?_ ?_ rfl rfl
    · exact ⟨same.topology, same.config, same.program, same.units⟩
    · have happens : Step program machine.topology.depth.value machine.network
          (.issue instruction) _ := .issue running next room
      have after :
          { machine with units, pc := machine.pc + 1, issued := machine.issued + 1 }.network =
          { { machine with units }.network with
            pc := machine.pc + 1, issued := machine.issued + 1 } := rfl
      rw [goesOn] at happens
      rw [after, becomes]
      exact happens

/-- Going on in the program is explained by one event at most. -/
theorem dispatch_explained (suits : machine.Suits program) :
    Explained program machine.topology.depth.value machine.network (History.Of .dispatch) network
      machine.Resembles machine.dispatch := by
  rw [dispatch]
  split
  · exact Explained.idle (.refl machine) false
  · rename_i notHalted
    have running : machine.halted = false := by simpa using notHalted
    simp only [suits.loaded]
    cases next : program[machine.pc]? with
    | none =>
      exact Explained.event .halt ⟨rfl, rfl, suits.loaded.symm, rfl⟩ (.halt running next) rfl rfl
    | some instruction =>
      cases instruction with
      | jump target =>
        have issues : Step program machine.topology.depth.value machine.network
            (.issue (.jump target)) _ := .issue running next fun place concerned => by
          simp [Instruction.concerns, Effect.of?] at concerned
        exact Explained.event _ ⟨rfl, rfl, suits.loaded.symm, rfl⟩ issues rfl rfl
      | move | immediate => exact issue_explained suits running next rfl

/-! ## Arrivals -/

/-- The inputs that a program names exist. -/
theorem Suits.exists_input {instruction : Instruction} {input : Address}
    (suits : machine.Suits program) (member : instruction ∈ program)
    (goes : instruction.goesTo input = true) :
    ∃ unit buffer, unitNumbered? machine.units input.unit = some unit ∧
      unit.buffers.input? input.buffer = some buffer := by
  have concerned : instruction.concerns (input.unit, .input) = true :=
    Instruction.concerns_input_iff.mpr ⟨input, rfl, goes⟩
  obtain ⟨unit, found⟩ := Option.isSome_iff_exists.mp (suits.present _ member _ concerned)
  have inUnits := List.mem_of_find?_eq_some found
  have inside := (suits.serves unit inUnits).input instruction member input
    (number_of_unitNumbered? found).symm goes
  exact ⟨unit, _, found, List.getElem?_eq_getElem inside⟩

/-- The machine after a pass over the packets in flight behind some that were held. -/
def delivering (machine : Machine) (before : List Packet)
    (delivery : Delivery (List ProcessingUnit)) : Machine :=
  { machine with
    units := delivery.endpoints
    shared := { machine.shared with
      interconnect := { machine.shared.interconnect with
        inFlight := before ++ delivery.held
        delivered := machine.shared.interconnect.delivered + delivery.count } } }

theorem delivering_hold (before : List Packet) (packet : Packet)
    (delivery : Delivery (List ProcessingUnit)) :
    machine.delivering (before ++ [packet]) delivery =
      machine.delivering before (delivery.hold packet) := by
  simp [delivering, Delivery.hold]

theorem delivering_arrive (before : List Packet) (arrived delivery : Delivery (List ProcessingUnit))
    (one : arrived.count = 1) :
    (machine.delivering before arrived).delivering before delivery =
      machine.delivering before delivery.arrive := by
  simp [delivering, Delivery.arrive, one]
  omega

/-- A packet that its input expects arrives. -/
theorem arrive_step {packet : Packet} {before later : List Packet} {unit : ProcessingUnit}
    {buffer : InputBuffer} {filled : List Slot} (suits : machine.Suits program)
    (flying : machine.shared.interconnect.inFlight = before ++ packet :: later)
    (first : packet.route ∉ before.map Packet.route)
    (found : unitNumbered? machine.units packet.destination.unit = some unit)
    (input : unit.buffers.input? packet.destination.buffer = some buffer)
    (fills : InputBuffer.fillOldest packet.sender packet.value buffer.slots = some filled) :
    let after := machine.delivering before ⟨Endpoints.setInput machine.units packet.destination
      { buffer with slots := filled }, later, 1, none⟩
    machine.Resembles after ∧
      Step program machine.topology.depth.value machine.network (.arrive packet) after.network := by
  obtain ⟨done, others, split⟩ := split_of_unitNumbered? found
  have number := number_of_unitNumbered? found
  have distinct := suits.distinct
  rw [split] at distinct
  let received : ProcessingUnit := { unit with
    buffers := unit.buffers.setInput packet.destination.buffer { buffer with slots := filled } }
  have altered :
      Endpoints.setInput machine.units packet.destination { buffer with slots := filled } =
      done ++ received :: others := by
    have changed := alterUnit_split distinct fun unit => { unit with
      buffers := unit.buffers.setInput packet.destination.buffer { buffer with slots := filled } }
    rw [← split] at changed
    rw [← changed, number]
    rfl
  have shape : received.reset = unit.reset := by
    simp only [ProcessingUnit.reset, received, Bank.clear_setInput input]
  rw [altered]
  constructor
  · refine ⟨rfl, rfl, rfl, ?_⟩
    simp [delivering, split, shape]
  · let sharing : Shared := { machine.shared with
      interconnect := { machine.shared.interconnect with
        inFlight := before ++ later
        delivered := machine.shared.interconnect.delivered + 1 } }
    have place : (⟨unit.number, packet.destination.buffer⟩ : Address) = packet.destination := by
      rw [number]
    have slots : machine.network.slots packet.destination = buffer.slots := by
      simp [network, found, Bank.slotsAt_of_input? input]
    have seated :
        machine.network.seat unit sharing = { machine.network with shared := sharing } := by
      rw [← network_seat machine unit sharing distinct rfl split, ← split]
      rfl
    have becomes := network_seat machine received sharing distinct rfl split
    rw [seat_slots unit (Bank.slotsAt_setInput input _) rfl, seated, place] at becomes
    have after : (machine.delivering before ⟨done ++ received :: others, later, 1, none⟩).network =
        _ := becomes
    rw [after]
    exact .arrive flying first (slots ▸ fills)

/-- A pass over the packets in flight is explained by the arrivals. -/
theorem deliverAll_leads (packets : List Packet) (blocked : List (Address × Address))
    (before : List Packet) (suits : machine.Suits program)
    (flying : machine.shared.interconnect.inFlight = before ++ packets)
    (held : ∀ packet ∈ before, packet.route ∈ blocked)
    (known : ∀ packet ∈ packets, ∃ instruction ∈ program,
      instruction.goesTo packet.destination = true)
    (leads : Leads program machine.topology.depth.value start (History.Of .delivery)
      machine.network) :
    (deliverAll blocked machine.units packets).fault = none ∧
      machine.Resembles (machine.delivering before (deliverAll blocked machine.units packets)) ∧
      Leads program machine.topology.depth.value start (History.Of .delivery)
        (machine.delivering before (deliverAll blocked machine.units packets)).network := by
  induction packets generalizing machine blocked before with
  | nil =>
    have same : machine.delivering before (deliverAll blocked machine.units []) = machine := by
      simp [delivering, deliverAll, ← flying]
    rw [same]
    exact ⟨rfl, .refl machine, leads⟩
  | cons packet later ih =>
    have knownLater := fun other member => known other (List.mem_cons_of_mem packet member)
    by_cases isBlocked : blocked.contains packet.route = true
    · rw [deliverAll_of_blocked isBlocked]
      obtain ⟨noFault, same, further⟩ := ih blocked (before ++ [packet]) suits (by simp [flying])
        (by simpa [or_imp, forall_and] using ⟨held, by simpa using isBlocked⟩) knownLater leads
      rw [delivering_hold] at same further
      exact ⟨noFault, same, further⟩
    · obtain ⟨instruction, member, goes⟩ := known packet List.mem_cons_self
      obtain ⟨unit, buffer, found, input⟩ := suits.exists_input member goes
      have exists_ : Endpoints.input? machine.units packet.destination = some buffer := by
        simpa [Endpoints.input?, found] using input
      cases fills : InputBuffer.fillOldest packet.sender packet.value buffer.slots with
      | none =>
        rw [deliverAll_of_refused isBlocked exists_ fills]
        have heldNow : ∀ other ∈ before ++ [packet], other.route ∈ packet.route :: blocked := by
          intro other isHeld
          rcases List.mem_append.mp isHeld with earlier | now
          · exact List.mem_cons_of_mem _ (held other earlier)
          · rw [List.mem_singleton.mp now]
            exact List.mem_cons_self
        obtain ⟨noFault, same, further⟩ := ih (packet.route :: blocked) (before ++ [packet]) suits
          (by simp [flying]) heldNow knownLater leads
        rw [delivering_hold] at same further
        exact ⟨noFault, same, further⟩
      | some filled =>
        rw [deliverAll_of_filled isBlocked exists_ fills]
        have first : packet.route ∉ before.map Packet.route := by
          intro inBefore
          obtain ⟨other, isEarlier, sameRoute⟩ := List.mem_map.mp inBefore
          refine isBlocked ?_
          rw [← sameRoute]
          simpa using held other isEarlier
        obtain ⟨same, happens⟩ := arrive_step suits flying first found input fills
        obtain ⟨noFault, sameAfter, further⟩ := ih blocked before (suits.of_resembles same) rfl held
          knownLater (leads.step happens rfl rfl)
        rw [delivering_arrive _ _ _ rfl] at sameAfter further
        exact ⟨noFault, same.trans sameAfter, further⟩

/-- If a pass over the packets in flight finds all inputs, delivering is just that pass. -/
theorem deliver_eq (noFault :
      (deliverAll [] machine.units machine.shared.interconnect.inFlight).fault = none) :
    machine.deliver =
      ⟨machine.delivering [] (deliverAll [] machine.units machine.shared.interconnect.inFlight),
        .ok (0 < (deliverAll [] machine.units machine.shared.interconnect.inFlight).count)⟩ := by
  simp only [deliver, Interconnect.deliver, noFault]
  rfl

/-- The delivery of packets is explained by their arrivals. -/
theorem deliver_explained (suits : machine.Suits program)
    (reachable : machine.network.Reachable program machine.topology.depth.value) :
    Explained program machine.topology.depth.value machine.network (History.Of .delivery) network
      machine.Resembles machine.deliver := by
  have known : ∀ packet ∈ machine.shared.interconnect.inFlight, ∃ instruction ∈ program,
      instruction.goesTo packet.destination = true := by
    obtain ⟨start, history, blank, evolves⟩ := reachable
    exact fun packet member => evolves.flying_mem blank member
  obtain ⟨noFault, same, leads⟩ := deliverAll_leads machine.shared.interconnect.inFlight [] [] suits
    rfl (by simp) known (.here machine.network .delivery)
  rw [deliver_eq noFault]
  exact leads.explained same _

/-! ## What is done in a round -/

/-- The moments of a round: going on in the program comes first, and if it fails no unit makes a
step. -/
def moments (machine : Machine) : List (ProcessingUnit × Shared) :=
  match machine.dispatch with
  | ⟨_, .error _⟩ => []
  | ⟨dispatched, .ok _⟩ => unitMoments dispatched.units dispatched.shared

/-- What is delivered between two states of a machine: values fill slots. -/
def deliveryChronicle (before after : Machine) : Chronicle :=
  { Chronicle.nothing with
    filled := fun route => InputBuffer.received route.1 (before.network.slots route.2)
      (after.network.slots route.2) }

theorem deliveryChronicle_self (machine : Machine) :
    deliveryChronicle machine machine = .nothing := by
  ext <;> simp [deliveryChronicle, Chronicle.nothing, InputBuffer.received_self]

/-- What is done in the round that begins at a machine. -/
def chronicle (machine : Machine) : Chronicle :=
  .join (machine.moments.map ProcessingUnit.chronicle) ++
    deliveryChronicle (machine.dispatch.andThen work).state machine.round.state

/-! ## Rounds -/

theorem moments_of_ok {progressed : Bool} (sound : machine.dispatch.report = .ok progressed) :
    machine.moments =
      unitMoments machine.dispatch.state.units machine.dispatch.state.shared := by
  rw [moments]
  generalize machine.dispatch = stepped at sound ⊢
  obtain ⟨dispatched, report⟩ := stepped
  obtain rfl : report = .ok progressed := sound
  rfl

theorem moments_of_error {fault : Fault} (fails : machine.dispatch.report = .error fault) :
    machine.moments = [] := by
  rw [moments]
  generalize machine.dispatch = stepped at fails ⊢
  obtain ⟨dispatched, report⟩ := stepped
  obtain rfl : report = .error fault := fails
  rfl

/-- What a round does before packets arrive is explained by events that did what is read off its
moments. -/
theorem dispatch_work_explained (suits : machine.Suits program)
    (reachable : machine.network.Reachable program machine.topology.depth.value) :
    Explained program machine.topology.depth.value machine.network
      (History.Does (.join (machine.moments.map ProcessingUnit.chronicle))) network
      machine.Resembles (machine.dispatch.andThen work) := by
  have works (events : History)
      (evolves : Evolves program machine.topology.depth.value machine.network events
        machine.dispatch.state.network) (same : machine.Resembles machine.dispatch.state) :
      Explained program machine.topology.depth.value machine.dispatch.state.network
        (History.Does (.join ((unitMoments machine.dispatch.state.units
          machine.dispatch.state.shared).map ProcessingUnit.chronicle)))
        network machine.Resembles machine.dispatch.state.work := by
    have reached := reachable.trans evolves
    rw [← same.topology] at reached ⊢
    exact (work_explained (suits.of_resembles same) reached).mono (fun _ _ => rfl)
      (fun _ later => same.trans later) fun _ _ _ => id
  have nothing (events : History) (of : events.Of .dispatch) : events.Does .nothing :=
    of.doesNothing (by simp) (by simp) (by simp) (by simp)
  refine (dispatch_explained suits).andThen works (fun _ sound events later of worksLater => ?_)
    fun fault fails events of => ?_
  · rw [moments_of_ok sound]
    exact (nothing events of).append worksLater
  · rw [moments_of_error fails]
    exact nothing events of

/-- A round is explained by events that did what is read off its moments and its delivery. -/
theorem round_explained (suits : machine.Suits program)
    (reachable : machine.network.Reachable program machine.topology.depth.value) :
    Explained program machine.topology.depth.value machine.network
      (History.Does machine.chronicle) network machine.Resembles machine.round := by
  rw [chronicle, round]
  refine (dispatch_work_explained suits reachable).andThenRead deliveryChronicle_self
    fun events evolves same => ?_
  have reached := reachable.trans evolves
  rw [← same.topology] at reached ⊢
  exact (deliver_explained (suits.of_resembles same) reached).mono (fun _ _ => rfl)
    (fun _ later => same.trans later) fun _ _ evolvesOn of => evolvesOn.does_of_delivery of

end Machine
end MoveMachine
