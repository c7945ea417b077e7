import MoveMachine.Proofs.Network.Kernels

/-!
# The courses of kernels

What a kernel comes to is determined by the slots from which it took its values,
firing by firing (`Network.course`). The order in which the kernels of a network
take turns has no part in it, as long as no more than one unit has access to
memory and no kernel fails (`Network.Evolves.replays`).
-/

set_option autoImplicit false

namespace MoveMachine

/-- The slots that a kernel takes in one firing, with their inputs. -/
abbrev Firing := List (UInt8 × Slot)

/-- Where a kernel has come to, and what it has given away. -/
structure Course where
  kernel : Kernel
  memory : Memory
  /-- The values given to the output. -/
  emitted : List Word
  /-- The values added to the results. -/
  collected : List Word

namespace Course

/-- The values that a firing takes. -/
def words (taken : Firing) : List Word := taken.filterMap (·.2.value?)

/-- A course with one more firing. -/
def fire (unit : UInt8) (course : Course) (taken : Firing) : Course :=
  match course.kernel.react unit course.memory (words taken) with
  | .ok reaction =>
    ⟨reaction.kernel, reaction.memory, course.emitted ++ reaction.emitted.toList,
      course.collected ++ reaction.collected.toList⟩
  | .error _ => course

variable {unit : UInt8} {course : Course} {taken : Firing}

theorem fire_of_react {reaction : Reaction}
    (reacts : course.kernel.react unit course.memory (words taken) = .ok reaction) :
    course.fire unit taken =
      ⟨reaction.kernel, reaction.memory, course.emitted ++ reaction.emitted.toList,
        course.collected ++ reaction.collected.toList⟩ := by
  rw [fire, reacts]

theorem fire_of_fault {fault : Fault}
    (fails : course.kernel.react unit course.memory (words taken) = .error fault) :
    course.fire unit taken = course := by
  rw [fire, fails]

theorem emitted_prefix_fire : course.emitted <+: (course.fire unit taken).emitted := by
  cases reacts : course.kernel.react unit course.memory (words taken) with
  | error fault => exact (fire_of_fault reacts).symm ▸ List.prefix_rfl
  | ok reaction => exact (fire_of_react reacts).symm ▸ List.prefix_append _ _

theorem type_fire : (course.fire unit taken).kernel.type = course.kernel.type := by
  cases reacts : course.kernel.react unit course.memory (words taken) with
  | error fault => rw [fire_of_fault reacts]
  | ok reaction =>
    rw [fire_of_react reacts, ← Kernel.type_reset, (Kernel.allows_of_react reacts).shape,
      Kernel.type_reset]

theorem memory_fire (notLoadStore : course.kernel.type ≠ .loadStore)
    (notStreamIn : course.kernel.type ≠ .streamIn) :
    (course.fire unit taken).memory = course.memory := by
  cases reacts : course.kernel.react unit course.memory (words taken) with
  | error fault => rw [fire_of_fault reacts]
  | ok reaction =>
    rw [fire_of_react reacts]
    exact (Kernel.allows_of_react reacts).keeps notLoadStore notStreamIn

theorem collected_fire (notControl : course.kernel.type ≠ .control) :
    (course.fire unit taken).collected = course.collected := by
  cases reacts : course.kernel.react unit course.memory (words taken) with
  | error fault => rw [fire_of_fault reacts]
  | ok reaction =>
    rw [fire_of_react reacts, (Kernel.allows_of_react reacts).collects notControl]
    exact List.append_nil _

/-- More firings give away more. -/
theorem emitted_prefix (course : Course) (firings : List Firing) :
    course.emitted <+: (firings.foldl (fire unit) course).emitted := by
  induction firings generalizing course with
  | nil => exact List.prefix_refl _
  | cons taken later ih => exact emitted_prefix_fire.trans (ih _)

theorem type_foldl (course : Course) (firings : List Firing) :
    (firings.foldl (fire unit) course).kernel.type = course.kernel.type := by
  induction firings generalizing course with
  | nil => rfl
  | cons taken later ih => exact (ih _).trans type_fire

/-- Only load-store units and units that stream into memory change it. -/
theorem memory_foldl (course : Course) (firings : List Firing)
    (notLoadStore : course.kernel.type ≠ .loadStore)
    (notStreamIn : course.kernel.type ≠ .streamIn) :
    (firings.foldl (fire unit) course).memory = course.memory := by
  induction firings generalizing course with
  | nil => rfl
  | cons taken later ih =>
    refine (ih _ ?_ ?_).trans (memory_fire notLoadStore notStreamIn)
    · rwa [type_fire]
    · rwa [type_fire]

/-- Only the control unit collects. -/
theorem collected_foldl (course : Course) (firings : List Firing)
    (notControl : course.kernel.type ≠ .control) :
    (firings.foldl (fire unit) course).collected = course.collected := by
  induction firings generalizing course with
  | nil => rfl
  | cons taken later ih =>
    refine (ih _ ?_).trans (collected_fire notControl)
    rwa [type_fire]

end Course

namespace Network

/-- The firing of a unit in an event, if any. -/
@[simp] def Event.fired (unit : UInt8) : Event → List Firing
  | .fire here taken _ => if here = unit then [taken] else []
  | _ => []

namespace History

/-- The firings of a unit. -/
def firings (history : History) (unit : UInt8) : List Firing :=
  history.flatMap (Event.fired unit)

@[simp] theorem firings_append (history later : History) (unit : UInt8) :
    firings (history ++ later) unit = history.firings unit ++ later.firings unit := by
  simp [firings]

@[simp] theorem firings_singleton (event : Event) (unit : UInt8) :
    firings [event] unit = event.fired unit := by
  simp [firings]

theorem firings_prefix {history longer : History} (goesOn : history <+: longer) (unit : UInt8) :
    history.firings unit <+: longer.firings unit := by
  obtain ⟨later, rfl⟩ := goesOn
  rw [firings_append]
  exact List.prefix_append _ _

end History

theorem Event.fired_cases (event : Event) (unit : UInt8) :
    event.fired unit = [] ∨
      ∃ taken emitted, event = .fire unit taken emitted ∧ event.fired unit = [taken] := by
  cases event with
  | fire here taken emitted =>
    by_cases same : here = unit
    · subst same
      exact .inr ⟨taken, emitted, rfl, if_pos rfl⟩
    · exact .inl (if_neg same)
  | issue | halt | fetch | apply | clear | fail | send | arrive | write => exact .inl rfl

/-- The course of a unit's kernel from a start, by its firings. A unit that does not exist has
none. -/
def course (start : Network) (unit : UInt8) (firings : List Firing) : Course :=
  firings.foldl (Course.fire unit)
    ⟨(start.kernel unit).getD .control, start.shared.memory, [], []⟩

section Courses

variable {program : List Instruction} {depth : Nat} {start network : Network}
  {history : History} {unit : UInt8}

theorem course_snoc (start : Network) (unit : UInt8) (firings : List Firing) (taken : Firing) :
    start.course unit (firings ++ [taken]) = (start.course unit firings).fire unit taken := by
  simp [course]

/-- A longer course gives away more. -/
theorem emitted_course_prefix {fewer more : List Firing} (start : Network) (unit : UInt8)
    (longer : fewer <+: more) :
    (start.course unit fewer).emitted <+: (start.course unit more).emitted := by
  obtain ⟨later, rfl⟩ := longer
  rw [course, course, List.foldl_append]
  exact Course.emitted_prefix _ later

/-- Whether only one unit can have access to memory, and only one can collect. -/
structure Exclusive (memoryUnit control : UInt8) (start : Network) : Prop where
  memory : ∀ unit kernel, start.kernel unit = some kernel → kernel.type.usesMemory = true →
    unit = memoryUnit
  control : ∀ unit kernel, start.kernel unit = some kernel → kernel.type = .control →
    unit = control

/-- The contents of kernels, memory and results, derived from the firings of a history. -/
structure Replays (memoryUnit control : UInt8) (start : Network) (history : History)
    (network : Network) : Prop where
  kernel : ∀ unit, network.kernel unit =
    (start.kernel unit).map fun _ => (start.course unit (history.firings unit)).kernel
  produced : ∀ unit, history.produced ⟨unit, Bank.result⟩ =
    (start.course unit (history.firings unit)).emitted
  memory : network.shared.memory =
    (start.course memoryUnit (history.firings memoryUnit)).memory
  collected : network.shared.results.toList =
    (start.course control (history.firings control)).collected

/-- Every firing of a history happened at some time before. -/
theorem Evolves.exists_firing (evolves : Evolves program depth start history network)
    {earlier later : List Firing} {taken : Firing}
    (fired : history.firings unit = earlier ++ taken :: later) :
    ∃ (before : History) (here next : Network) (emitted : Option Word), before <+: history ∧
      before.firings unit = earlier ∧ Evolves program depth start before here ∧
        Step program depth here (.fire unit taken emitted) next := by
  induction evolves generalizing later with
  | start => simp [History.firings] at fired
  | @step history network after event evolvesBefore happens ih =>
    have goesOn : history <+: history ++ [event] := List.prefix_append _ _
    rw [History.firings_append, History.firings_singleton] at fired
    rcases event.fired_cases unit with none | ⟨last, emitted, rfl, some⟩
    · rw [none, List.append_nil] at fired
      obtain ⟨before, here, next, emitted, isBefore, found⟩ := ih fired
      exact ⟨before, here, next, emitted, isBefore.trans goesOn, found⟩
    · rw [some] at fired
      rcases List.eq_nil_or_concat later with rfl | ⟨later, final, rfl⟩
      · obtain ⟨sameBefore, sameLast⟩ := List.append_inj' fired rfl
        obtain rfl := List.singleton_inj.mp sameLast
        exact ⟨history, network, after, emitted, goesOn, sameBefore, evolvesBefore, happens⟩
      · rw [List.concat_eq_append, ← List.cons_append, ← List.append_assoc] at fired
        obtain ⟨before, here, next, emitted, isBefore, found⟩ := ih (List.append_inj' fired rfl).1
        exact ⟨before, here, next, emitted, isBefore.trans goesOn, found⟩

/-- A firing goes on with the course of its unit. -/
theorem Replays.fire {memoryUnit control unit : UInt8} {kernel : Kernel} {taken : Firing}
    {words : List Word} {reaction : Reaction} (exclusive : start.Exclusive memoryUnit control)
    (replays : Replays memoryUnit control start history network)
    (present : network.kernel unit = some kernel)
    (holds : taken.map (·.2.value?) = words.map some)
    (reacts : kernel.react unit network.shared.memory words = .ok reaction) :
    ∃ memory, start.course unit (history.firings unit ++ [taken]) =
        ⟨reaction.kernel, memory,
          (start.course unit (history.firings unit)).emitted ++ reaction.emitted.toList,
          (start.course unit (history.firings unit)).collected ++ reaction.collected.toList⟩ ∧
      (unit = memoryUnit → memory = reaction.memory) ∧
      (unit ≠ memoryUnit → reaction.memory = network.shared.memory) ∧
      (unit ≠ control → reaction.collected = none) := by
  have replayed := replays.kernel unit
  rw [present] at replayed
  obtain ⟨original, isOriginal, rfl⟩ := Option.map_eq_some_iff.mp replayed.symm
  have type : (start.course unit (history.firings unit)).kernel.type = original.type := by
    rw [course, Course.type_foldl, isOriginal, Option.getD_some]
  have values : Course.words taken = words := by
    have mapped := congrArg (List.filterMap id) holds
    simpa [Course.words, List.filterMap_map, Function.comp_def] using mapped
  have allows := Kernel.allows_of_react reacts
  have collects (apart : unit ≠ control) : reaction.collected = none :=
    allows.collects fun isControl =>
      apart (exclusive.control unit original isOriginal (type ▸ isControl))
  rw [course_snoc]
  by_cases here : unit = memoryUnit
  · subst here
    rw [replays.memory, ← values] at reacts
    exact ⟨_, Course.fire_of_react reacts, fun _ => rfl, fun apart => absurd rfl apart, collects⟩
  · have independent : original.type.usesMemory = false := by
      by_contra uses
      exact here (exclusive.memory unit original isOriginal (by simpa using uses))
    have same := Kernel.react_of_usesMemory (type ▸ independent) reacts
      (start.course unit (history.firings unit)).memory
    rw [← values] at same
    have fired := Course.fire_of_react same
    refine ⟨_, fired, fun isHere => absurd isHere here, fun _ => ?_, collects⟩
    refine allows.keeps ?_ ?_
    · intro isLoadStore
      rw [← type, isLoadStore] at independent
      cases independent
    · intro isStreamIn
      rw [← type, isStreamIn] at independent
      cases independent

/-- Without failures, the firings of a history tell the kernels, the values produced, the memory
and the results. -/
theorem Evolves.replays {memoryUnit control : UInt8} (blank : start.Blank)
    (exclusive : start.Exclusive memoryUnit control)
    (evolves : Evolves program depth start history network) (undisturbed : history.Undisturbed) :
    Replays memoryUnit control start history network := by
  induction evolves with
  | start =>
    refine ⟨fun unit => ?_, fun unit => rfl, rfl, ?_⟩
    · cases present : start.kernel unit <;> simp [course, History.firings, present]
    · simp [course, History.firings, blank.results]
  | @step history network after event earlier happens ih =>
    obtain ⟨undisturbedBefore, quiet⟩ := (History.undisturbed_append _).mp undisturbed
    have replays := ih undisturbedBefore
    have now : event.disturbs = false := quiet event List.mem_cons_self
    cases happens with
    | fail | write => cases now
    | issue | halt | fetch | openSlot | direct | clear | send | arrive =>
      exact ⟨by simpa using replays.kernel, by simpa using replays.produced,
        by simpa using replays.memory, by simpa using replays.collected⟩
    | @fire unit kernel taken words reaction present awaits room heads holds reacts =>
      obtain ⟨memory, further, sameMemory, keptMemory, nothing⟩ :=
        replays.fire exclusive present holds reacts
      have startsWith : (start.kernel unit).isSome = true := by
        have replayed := replays.kernel unit
        rw [present] at replayed
        cases isOriginal : start.kernel unit with
        | none => simp [isOriginal] at replayed
        | some original => rfl
      refine ⟨fun other => ?_, fun other => ?_, ?_, ?_⟩
      · by_cases same : other = unit
        · subst same
          obtain ⟨original, isOriginal⟩ := Option.isSome_iff_exists.mp startsWith
          simp [further, isOriginal]
        · simpa [same, Ne.symm same] using replays.kernel other
      · by_cases same : other = unit
        · subst same
          simp [further, replays.produced]
        · simpa [same, Ne.symm same] using replays.produced other
      · by_cases same : unit = memoryUnit
        · subst same
          simp [further, sameMemory rfl]
        · simpa [same, keptMemory same] using replays.memory
      · by_cases same : unit = control
        · subst same
          simp [further, replays.collected]
        · simpa [same, nothing same] using replays.collected

end Courses

end Network
end MoveMachine
