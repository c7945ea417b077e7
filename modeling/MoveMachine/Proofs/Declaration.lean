import MoveMachine.Proofs.Naming

/-!
# Which declarations are in order

A declaration is in order if the depth fits, there is one interconnect, and the units can stand
together on it (`Topology.Compatible`): no two of them have the same name or the same number, each
is of a known kind and has a number that the interconnect can address. `Topology.declare` accepts
exactly these declarations; of any other it reports the first violation, in an order that
`Topology.FirstViolation` spells out without going through the checks. The order in which the units
of an accepted declaration are listed makes no difference (`Topology.declare_decides`).

The units are checked against maps that grow on the way. What carries the proof is that these maps
list the descriptions of the units declared so far and nothing else (`Topology.Lists`), so that a
check against a map is one against the earlier units.
-/

set_option autoImplicit false

namespace MoveMachine

namespace NameMap

variable {α : Type}

/-- Maps with the same entries are equal. -/
theorem eq_of_perm {map other : NameMap α} (same : map.entries.Perm other.entries) :
    map = other := by
  obtain ⟨entries, ascending⟩ := map
  obtain ⟨entries', ascending'⟩ := other
  obtain rfl : entries = entries' :=
    same.eq_of_pairwise (fun _ _ _ _ before after => absurd before (String.lt_asymm after))
      ascending ascending'
  rfl

end NameMap

namespace UnitType

/-- The names of the kinds. -/
def names : List String := ["cu", "lsu", "memory_stream_in", "memory_stream_out", "rob", "pu"]

/-- The names of the kinds are those that are looked up. -/
theorem ofName?_eq_none_iff {name : String} : ofName? name = none ↔ name ∉ names := by
  have named : names = all.map UnitType.name := rfl
  rw [ofName?, List.find?_eq_none, named, List.mem_map]
  constructor
  · rintro unknown ⟨kind, member, rfl⟩
    exact unknown kind member (by simp)
  · intro absent kind member same
    exact absent ⟨kind, member, eq_of_beq same⟩

end UnitType

namespace Topology

variable {unitCount : Nat} {units after : NameMap UnitDescription} {name : String} {depth : Nat}
  {interconnects : List InterconnectDeclaration} {declared earlier later : List UnitDeclaration}
  {unit : UnitDeclaration} {error : TopologyError} {topology : Topology}

/-! ## Declarations in order -/

/-- Whether declared units can stand together on an interconnect for a number of units. The number
255 is that of the reserved address. -/
structure Compatible (unitCount : Nat) (units : List UnitDeclaration) : Prop where
  names : (units.map (·.name)).Nodup
  kinds : ∀ unit ∈ units, unit.type ∈ UnitType.names
  inRange : ∀ unit ∈ units, unit.number < min 255 unitCount
  numbers : (units.map (·.number)).Nodup

/-- Whether a declaration is in order. -/
structure Valid (depth : Nat) (interconnects : List InterconnectDeclaration)
    (units : List UnitDeclaration) : Prop where
  depth : 1 ≤ depth ∧ depth ≤ 255
  interconnect : ∃ interconnect, interconnects = [interconnect] ∧
    Compatible interconnect.unitCount units

/-- The first thing that is wrong with a unit that is declared behind others. -/
inductive Violation (unitCount : Nat) (earlier : List UnitDeclaration) (unit : UnitDeclaration) :
    TopologyError → Prop where
  | duplicateName (taken : unit.name ∈ earlier.map (·.name)) :
      Violation unitCount earlier unit (.duplicateUnit unit.name)
  | unknownType (fresh : unit.name ∉ earlier.map (·.name)) (unknown : unit.type ∉ UnitType.names) :
      Violation unitCount earlier unit (.unknownUnitType unit.name unit.type)
  | outOfRange (fresh : unit.name ∉ earlier.map (·.name)) (known : unit.type ∈ UnitType.names)
      (outside : min 255 unitCount ≤ unit.number) :
      Violation unitCount earlier unit (.unitNumberOutOfRange unit.name unit.number unitCount)
  | duplicateNumber {first : UnitDeclaration} (fresh : unit.name ∉ earlier.map (·.name))
      (known : unit.type ∈ UnitType.names) (inside : unit.number < min 255 unitCount)
      (member : first ∈ earlier) (same : first.number = unit.number) :
      Violation unitCount earlier unit
        (.duplicateUnitNumber (UInt8.ofNat unit.number) first.name unit.name)

/-- The first thing that is wrong with a declaration: the depth comes first, then the number of
interconnects, then the units in the order of their declaration. -/
inductive FirstViolation (name : String) (depth : Nat)
    (interconnects : List InterconnectDeclaration) (units : List UnitDeclaration) :
    TopologyError → Prop where
  | depth (outside : ¬(1 ≤ depth ∧ depth ≤ 255)) :
      FirstViolation name depth interconnects units (.invalidBufferDepth depth)
  | missing (inside : 1 ≤ depth ∧ depth ≤ 255) (nothing : interconnects = []) :
      FirstViolation name depth interconnects units (.missingInterconnect name)
  | multiple (inside : 1 ≤ depth ∧ depth ≤ 255) (several : 2 ≤ interconnects.length) :
      FirstViolation name depth interconnects units
        (.multipleInterconnects name interconnects.length)
  | unit {interconnect : InterconnectDeclaration} {earlier later : List UnitDeclaration}
      {unit : UnitDeclaration} {error : TopologyError} (inside : 1 ≤ depth ∧ depth ≤ 255)
      (sole : interconnects = [interconnect]) (split : units = earlier ++ unit :: later)
      (compatible : Compatible interconnect.unitCount earlier)
      (violates : Violation interconnect.unitCount earlier unit error) :
      FirstViolation name depth interconnects units error

theorem compatible_nil (unitCount : Nat) : Compatible unitCount [] :=
  ⟨.nil, nofun, nofun, .nil⟩

theorem Compatible.perm {others : List UnitDeclaration} (compatible : Compatible unitCount declared)
    (same : others.Perm declared) : Compatible unitCount others where
  names := (same.map _).nodup_iff.mpr compatible.names
  kinds unit member := compatible.kinds unit (same.mem_iff.mp member)
  inRange unit member := compatible.inRange unit (same.mem_iff.mp member)
  numbers := (same.map _).nodup_iff.mpr compatible.numbers

/-- One more unit is compatible with others if it is in order by itself and neither its name nor its
number is taken. -/
theorem compatible_append_iff :
    Compatible unitCount (earlier ++ [unit]) ↔ Compatible unitCount earlier ∧
      unit.name ∉ earlier.map (·.name) ∧ unit.type ∈ UnitType.names ∧
      unit.number < min 255 unitCount ∧ unit.number ∉ earlier.map (·.number) := by
  constructor
  · intro compatible
    have names := compatible.names
    have numbers := compatible.numbers
    rw [List.map_append, List.map_singleton, List.nodup_append_comm, List.singleton_append,
      List.nodup_cons] at names numbers
    have isLast : unit ∈ earlier ++ [unit] := List.mem_append_right _ List.mem_cons_self
    exact ⟨⟨names.2, fun other member => compatible.kinds other (List.mem_append_left _ member),
      fun other member => compatible.inRange other (List.mem_append_left _ member), numbers.2⟩,
      names.1, compatible.kinds unit isLast, compatible.inRange unit isLast, numbers.1⟩
  · rintro ⟨compatible, fresh, known, inside, free⟩
    constructor
    case names =>
      rw [List.map_append, List.map_singleton, List.nodup_append_comm, List.singleton_append]
      exact List.nodup_cons.mpr ⟨fresh, compatible.names⟩
    case numbers =>
      rw [List.map_append, List.map_singleton, List.nodup_append_comm, List.singleton_append]
      exact List.nodup_cons.mpr ⟨free, compatible.numbers⟩
    case kinds =>
      exact List.forall_mem_append.mpr ⟨compatible.kinds, by simpa using known⟩
    case inRange =>
      exact List.forall_mem_append.mpr ⟨compatible.inRange, List.forall_mem_singleton.mpr inside⟩

/-- Units in front of compatible ones are compatible. -/
theorem Compatible.of_append (compatible : Compatible unitCount (earlier ++ later)) :
    Compatible unitCount earlier where
  names := (compatible.names.sublist (List.Sublist.map _ (List.sublist_append_left _ _)))
  kinds unit member := compatible.kinds unit (List.mem_append_left _ member)
  inRange unit member := compatible.inRange unit (List.mem_append_left _ member)
  numbers := (compatible.numbers.sublist (List.Sublist.map _ (List.sublist_append_left _ _)))

/-! ## Describing declared units -/

/-- Whether a map is that of the descriptions of some declared units, which can stand together. -/
structure Lists (unitCount : Nat) (declared : List UnitDeclaration)
    (units : NameMap UnitDescription) : Prop where
  compatible : Compatible unitCount declared
  orderly : Orderly units
  values : units.values.Perm (declared.filterMap (UnitDeclaration.description? unitCount))

theorem lists_empty (unitCount : Nat) : Lists unitCount [] .empty :=
  ⟨compatible_nil unitCount, orderly_empty, .nil⟩

theorem unitNumber?_eq_none_iff {number : Nat} :
    unitNumber? unitCount number = none ↔ min 255 unitCount ≤ number := by
  rw [unitNumber?]
  split
  · exact iff_of_false (Option.some_ne_none _) (by omega)
  · exact iff_of_true rfl (by omega)

theorem unitNumber?_eq_some_iff {declared : Nat} {number : UInt8} :
    unitNumber? unitCount declared = some number ↔
      declared < min 255 unitCount ∧ number = UInt8.ofNat declared := by
  rw [unitNumber?]
  split
  · rw [Option.some.injEq, eq_comm]
    exact (and_iff_right (by omega)).symm
  · exact iff_of_false (Option.some_ne_none number).symm (by omega)

/-- A unit of a known kind with a number in range has a description. -/
theorem exists_description? (known : unit.type ∈ UnitType.names)
    (inside : unit.number < min 255 unitCount) :
    ∃ description, unit.description? unitCount = some description := by
  cases isType : UnitType.ofName? unit.type with
  | none => exact absurd known (UnitType.ofName?_eq_none_iff.mp isType)
  | some type =>
    have isNumber := unitNumber?_eq_some_iff.mpr ⟨inside, rfl⟩
    exact Option.isSome_iff_exists.mp (by simp [UnitDeclaration.description?, isType, isNumber])

namespace Lists

/-- The map has what each of the declared units is described as, and nothing else. -/
theorem mem_values_iff (lists : Lists unitCount declared units)
    {description : UnitDescription} : description ∈ units.values ↔
      ∃ unit ∈ declared, unit.description? unitCount = some description := by
  rw [lists.values.mem_iff, List.mem_filterMap]

/-- The names in the map are those of the declared units. -/
theorem contains_iff (lists : Lists unitCount declared units) :
    units.contains name = true ↔ name ∈ declared.map (·.name) := by
  rw [NameMap.contains, Option.isSome_iff_exists, List.mem_map]
  simp only [lists.orderly.find?_eq_some_iff, lists.mem_values_iff]
  constructor
  · rintro ⟨description, ⟨unit, member, described⟩, rfl⟩
    exact ⟨unit, member, (description?_spec described).1.symm⟩
  · rintro ⟨unit, member, rfl⟩
    obtain ⟨description, described⟩ := exists_description?
      (lists.compatible.kinds unit member) (lists.compatible.inRange unit member)
    exact ⟨description, ⟨unit, member, described⟩, (description?_spec described).1⟩

/-- The unit that is found under a number is the description of the declared one with it. -/
theorem numbered?_eq_some_iff (lists : Lists unitCount declared units) {number : UInt8}
    {description : UnitDescription} :
    numbered? units number = some description ↔ ∃ unit ∈ declared,
      unit.number = number.toNat ∧ unit.description? unitCount = some description := by
  rw [lists.orderly.numbered?_eq_some_iff, lists.mem_values_iff]
  constructor
  · rintro ⟨⟨unit, member, described⟩, rfl⟩
    exact ⟨unit, member, (description?_spec described).2.2.symm, described⟩
  · rintro ⟨unit, member, same, described⟩
    have isNumber := (description?_spec described).2.2
    exact ⟨⟨unit, member, described⟩, UInt8.toNat_inj.mp (isNumber.trans same)⟩

/-- No unit is found under a number that no declared unit has. -/
theorem numbered?_eq_none_iff (lists : Lists unitCount declared units) {number : UInt8} :
    numbered? units number = none ↔ number.toNat ∉ declared.map (·.number) := by
  rw [Option.eq_none_iff_forall_ne_some, List.mem_map]
  constructor
  · rintro unused ⟨unit, member, same⟩
    obtain ⟨description, described⟩ := exists_description?
      (lists.compatible.kinds unit member) (lists.compatible.inRange unit member)
    exact unused description (lists.numbered?_eq_some_iff.mpr ⟨unit, member, same, described⟩)
  · intro absent description found
    obtain ⟨unit, member, same, -⟩ := lists.numbered?_eq_some_iff.mp found
    exact absent ⟨unit, member, same⟩

end Lists

/-- A number in range is the number of its byte. -/
theorem toNat_ofNat_of_inside {number : Nat} (inside : number < min 255 unitCount) :
    (UInt8.ofNat number).toNat = number :=
  UInt8.toNat_ofNat_of_lt' (by change number < 256; omega)

/-- A unit is refused for the first thing that is wrong with it. -/
theorem Lists.describe_error (lists : Lists unitCount declared units)
    (violates : Violation unitCount declared unit error) :
    describe unitCount units unit = .error error := by
  have isFresh (fresh : unit.name ∉ declared.map (·.name)) :
      units.contains unit.name = false := by
    rw [← Bool.not_eq_true, lists.contains_iff]
    exact fresh
  have hasKind (known : unit.type ∈ UnitType.names) :
      ∃ type, UnitType.ofName? unit.type = some type := by
    rw [← Option.ne_none_iff_exists', Ne, UnitType.ofName?_eq_none_iff]
    exact not_not_intro known
  cases violates with
  | duplicateName taken => simp [describe, lists.contains_iff.mpr taken]
  | unknownType fresh unknown =>
    simp [describe, isFresh fresh, UnitType.ofName?_eq_none_iff.mpr unknown]
  | outOfRange fresh known outside =>
    obtain ⟨type, isType⟩ := hasKind known
    simp [describe, isFresh fresh, isType, unitNumber?_eq_none_iff.mpr outside]
  | @duplicateNumber first fresh known inside member same =>
    obtain ⟨type, isType⟩ := hasKind known
    obtain ⟨description, described⟩ := exists_description?
      (lists.compatible.kinds first member) (lists.compatible.inRange first member)
    have found : numbered? units (UInt8.ofNat unit.number) = some description :=
      lists.numbered?_eq_some_iff.mpr
        ⟨first, member, same.trans (toNat_ofNat_of_inside inside).symm, described⟩
    simp [describe, isFresh fresh, isType, unitNumber?_eq_some_iff.mpr ⟨inside, rfl⟩, found,
      (description?_spec described).1]

/-- A unit that is compatible with those before it is described. -/
theorem Lists.describe_ok (lists : Lists unitCount declared units)
    (compatible : Compatible unitCount (declared ++ [unit])) :
    ∃ after, describe unitCount units unit = .ok after ∧
      Lists unitCount (declared ++ [unit]) after := by
  obtain ⟨-, fresh, known, inside, free⟩ := compatible_append_iff.mp compatible
  obtain ⟨description, described⟩ := exists_description? known inside
  have isFresh : units.contains unit.name = false := by
    rwa [← Bool.not_eq_true, lists.contains_iff]
  have isFree : numbered? units (UInt8.ofNat unit.number) = none := by
    rwa [lists.numbered?_eq_none_iff, toNat_ofNat_of_inside inside]
  have isNumber := unitNumber?_eq_some_iff.mpr ⟨inside, rfl⟩
  have describes : ∃ after, describe unitCount units unit = .ok after := by
    simp [describe, isFresh, (description?_spec described).2.1, isNumber, isFree]
  obtain ⟨after, describes⟩ := describes
  obtain ⟨added, isAdded, adds⟩ := describe_adds describes
  refine ⟨after, describes, compatible, lists.orderly.describe describes, ?_⟩
  rw [List.filterMap_append, List.filterMap_cons_some isAdded, List.filterMap_nil]
  exact adds.trans ((lists.values.cons added).trans (List.perm_append_singleton _ _).symm)

/-- Either a unit is compatible with those before it, or there is a first thing wrong with it. -/
theorem exists_violation (compatible : Compatible unitCount earlier)
    (clashes : ¬Compatible unitCount (earlier ++ [unit])) :
    ∃ error, Violation unitCount earlier unit error := by
  by_cases fresh : unit.name ∉ earlier.map (·.name)
  case neg => exact ⟨_, .duplicateName (not_not.mp fresh)⟩
  by_cases known : unit.type ∈ UnitType.names
  case neg => exact ⟨_, .unknownType fresh known⟩
  by_cases inside : unit.number < min 255 unitCount
  case neg => exact ⟨_, .outOfRange fresh known (not_lt.mp inside)⟩
  by_cases free : unit.number ∉ earlier.map (·.number)
  case neg =>
    obtain ⟨first, member, same⟩ := List.mem_map.mp (not_not.mp free)
    exact ⟨_, .duplicateNumber fresh known inside member same⟩
  exact absurd (compatible_append_iff.mpr ⟨compatible, fresh, known, inside, free⟩) clashes

/-- Compatible units are described one after the other. -/
theorem Lists.describeAll_ok (lists : Lists unitCount declared units)
    (compatible : Compatible unitCount (declared ++ later)) :
    ∃ after, describeAll unitCount units later = .ok after ∧
      Lists unitCount (declared ++ later) after := by
  induction later generalizing declared units with
  | nil => exact ⟨units, rfl, by rwa [List.append_nil]⟩
  | cons unit later ih =>
    rw [List.append_cons] at compatible ⊢
    obtain ⟨described, describes, listsMore⟩ := lists.describe_ok compatible.of_append
    obtain ⟨after, describesAll, listsAll⟩ := ih listsMore compatible
    refine ⟨after, ?_, listsAll⟩
    rw [describeAll, describes]
    exact describesAll

/-- The first unit with which something is wrong ends the description. -/
theorem Lists.describeAll_error (lists : Lists unitCount declared units)
    (compatible : Compatible unitCount (declared ++ earlier))
    (violates : Violation unitCount (declared ++ earlier) unit error) :
    describeAll unitCount units (earlier ++ unit :: later) = .error error := by
  induction earlier generalizing declared units with
  | nil =>
    rw [List.append_nil] at violates
    rw [List.nil_append, describeAll, lists.describe_error violates]
    rfl
  | cons first earlier ih =>
    rw [List.append_cons] at compatible violates
    obtain ⟨described, describes, listsMore⟩ := lists.describe_ok compatible.of_append
    rw [List.cons_append, describeAll, describes]
    exact ih listsMore compatible violates

/-- Among units that are not compatible there is a first one with which something is wrong. -/
theorem exists_first_violation (compatible : Compatible unitCount declared)
    (clashes : ¬Compatible unitCount (declared ++ later)) :
    ∃ earlier unit rest error, later = earlier ++ unit :: rest ∧
      Compatible unitCount (declared ++ earlier) ∧
      Violation unitCount (declared ++ earlier) unit error := by
  induction later generalizing declared with
  | nil => exact absurd compatible (by rwa [List.append_nil] at clashes)
  | cons unit later ih =>
    by_cases compatibleMore : Compatible unitCount (declared ++ [unit])
    · rw [List.append_cons] at clashes
      obtain ⟨earlier, last, rest, error, rfl, compatibleAll, violates⟩ := ih compatibleMore clashes
      rw [← List.append_cons] at compatibleAll violates
      exact ⟨unit :: earlier, last, rest, error, rfl, compatibleAll, violates⟩
    · obtain ⟨error, violates⟩ := exists_violation compatible compatibleMore
      exact ⟨[], unit, later, error, rfl, by rwa [List.append_nil], by rwa [List.append_nil]⟩

/-! ## Declaring -/

theorem depth_ofNat?_eq_none_iff : Depth.ofNat? depth = none ↔ ¬(1 ≤ depth ∧ depth ≤ 255) := by
  rw [Depth.ofNat?]
  split
  · rename_i inRange
    exact iff_of_false (Option.some_ne_none _) (not_not_intro inRange)
  · rename_i outside
    exact iff_of_true rfl outside

theorem exists_depth (inside : 1 ≤ depth ∧ depth ≤ 255) :
    ∃ checked, Depth.ofNat? depth = some checked := by
  rw [← Option.ne_none_iff_exists', Ne, depth_ofNat?_eq_none_iff]
  exact not_not_intro inside

theorem soleInterconnect_of_several (name : String) (several : 2 ≤ interconnects.length) :
    soleInterconnect name interconnects =
      .error (.multipleInterconnects name interconnects.length) := by
  rcases interconnects with _ | ⟨first, _ | ⟨second, others⟩⟩
  · cases several
  · exact absurd several (Nat.not_succ_le_self 1)
  · rfl

/-- A declaration in order is accepted, and the topology lists its units. -/
theorem declare_ok {interconnect : InterconnectDeclaration} (name : String)
    (inside : 1 ≤ depth ∧ depth ≤ 255) (compatible : Compatible interconnect.unitCount declared) :
    ∃ checked described, Depth.ofNat? depth = some checked ∧
      Lists interconnect.unitCount declared described ∧
      declare name depth [interconnect] declared =
        .ok ⟨name, checked, interconnect, described⟩ := by
  obtain ⟨checked, isDepth⟩ := exists_depth inside
  obtain ⟨described, describes, lists⟩ :=
    (lists_empty interconnect.unitCount).describeAll_ok compatible
  refine ⟨checked, described, isDepth, lists, ?_⟩
  simp only [declare, isDepth, soleInterconnect, describes, bind, Except.bind, pure, Except.pure]

/-- A declaration is refused for the first thing that is wrong with it. -/
theorem declare_error (violates : FirstViolation name depth interconnects declared error) :
    declare name depth interconnects declared = .error error := by
  cases violates with
  | depth outside => rw [declare, depth_ofNat?_eq_none_iff.mpr outside]
  | missing inside nothing =>
    obtain ⟨checked, isDepth⟩ := exists_depth inside
    rw [declare, isDepth, nothing]
    rfl
  | multiple inside several =>
    obtain ⟨checked, isDepth⟩ := exists_depth inside
    rw [declare, isDepth]
    simp only [soleInterconnect_of_several name several, bind, Except.bind]
  | @unit interconnect earlier later unit _ inside sole split compatible violates =>
    obtain ⟨checked, isDepth⟩ := exists_depth inside
    subst sole split
    have refused : describeAll interconnect.unitCount .empty (earlier ++ unit :: later) =
        .error error := (lists_empty _).describeAll_error compatible violates
    simp only [declare, isDepth, soleInterconnect, refused, bind, Except.bind]

/-- With a declaration that is not in order, there is a first thing that is wrong. -/
theorem exists_firstViolation (name : String)
    (disorder : ¬Valid depth interconnects declared) :
    ∃ error, FirstViolation name depth interconnects declared error := by
  by_cases inside : 1 ≤ depth ∧ depth ≤ 255
  case neg => exact ⟨_, .depth inside⟩
  rcases interconnects with _ | ⟨interconnect, _ | ⟨second, others⟩⟩
  case nil => exact ⟨_, .missing inside rfl⟩
  case cons.cons => exact ⟨_, .multiple inside (by simp)⟩
  case cons.nil =>
    have clashes : ¬Compatible interconnect.unitCount declared :=
      fun compatible => disorder ⟨inside, interconnect, rfl, compatible⟩
    obtain ⟨earlier, unit, rest, error, split, compatible, violates⟩ :=
      exists_first_violation (compatible_nil _) clashes
    exact ⟨error, .unit inside rfl split compatible violates⟩

/-- A topology is accepted if its declaration is in order, and only then. -/
theorem exists_declare_iff :
    (∃ topology, declare name depth interconnects declared = .ok topology) ↔
      Valid depth interconnects declared := by
  constructor
  · rintro ⟨topology, declares⟩
    by_contra disorder
    obtain ⟨error, violates⟩ := exists_firstViolation name disorder
    rw [declare_error violates] at declares
    cases declares
  · rintro ⟨inside, interconnect, rfl, compatible⟩
    obtain ⟨checked, described, -, -, declares⟩ := declare_ok name inside compatible
    exact ⟨_, declares⟩

/-! ## The order of the units -/

/-- Units in order stand under their own names. -/
theorem Orderly.entries_eq (orderly : Orderly units) :
    units.entries = units.values.map fun description => (description.name, description) := by
  have unchanged : ∀ entry ∈ units.entries, (entry.2.name, entry.2) = id entry :=
    fun entry member => Prod.ext (orderly.named entry member) rfl
  rw [NameMap.values, List.map_map]
  exact ((List.map_congr_left unchanged).trans (List.map_id _)).symm

/-- Maps that list the same units are equal. -/
theorem Lists.eq_of_perm {other : NameMap UnitDescription} {others : List UnitDeclaration}
    (lists : Lists unitCount declared units) (listsToo : Lists unitCount others other)
    (same : others.Perm declared) : units = other := by
  apply NameMap.eq_of_perm
  rw [lists.orderly.entries_eq, listsToo.orderly.entries_eq]
  refine List.Perm.map _ ?_
  exact lists.values.trans ((same.filterMap _).symm.trans listsToo.values.symm)

/-- Exactly the declarations in order are accepted. Of any other, the first violation is reported:
of the depth, of the number of interconnects, or of the first unit with which something is wrong,
and of what is wrong with that unit the first. The order in which the units of an accepted
declaration are listed makes no difference to the topology. -/
theorem declare_decides (name : String) (depth : Nat) (interconnects : List InterconnectDeclaration)
    (units : List UnitDeclaration) :
    ((∃ topology, declare name depth interconnects units = .ok topology) ↔
      Valid depth interconnects units) ∧
    (∀ error, declare name depth interconnects units = .error error ↔
      FirstViolation name depth interconnects units error) ∧
    ∀ topology, declare name depth interconnects units = .ok topology →
      ∀ others : List UnitDeclaration, others.Perm units →
        declare name depth interconnects others = .ok topology := by
  refine ⟨exists_declare_iff, fun error => ⟨?refused, declare_error⟩, ?permuted⟩
  case refused =>
    intro refuses
    have disorder : ¬Valid depth interconnects units := by
      intro valid
      obtain ⟨topology, declares⟩ := exists_declare_iff.mpr valid
      rw [refuses] at declares
      cases declares
    obtain ⟨first, violates⟩ := exists_firstViolation name disorder
    obtain rfl := Except.error.inj (refuses.symm.trans (declare_error violates))
    exact violates
  case permuted =>
    intro topology declares others same
    obtain ⟨inside, interconnect, rfl, compatible⟩ := exists_declare_iff.mp ⟨topology, declares⟩
    obtain ⟨checked, described, isDepth, lists, accepts⟩ := declare_ok name inside compatible
    obtain ⟨checkedToo, describedToo, isDepthToo, listsToo, acceptsToo⟩ :=
      declare_ok name inside (compatible.perm same)
    obtain rfl := Option.some.inj (isDepth.symm.trans isDepthToo)
    obtain rfl := lists.eq_of_perm listsToo same
    rw [acceptsToo, ← accepts, declares]

/-- In the adder's declaration the units may be listed the other way round. With a third unit that
has a name and a number of theirs and a kind that there is not, the name is what is reported. -/
theorem adderUnits_decided :
    ∃ topology, declare "adder" 2 [⟨"net", "ring", 8⟩] adderUnits = .ok topology ∧
      declare "adder" 2 [⟨"net", "ring", 8⟩] adderUnits.reverse = .ok topology ∧
      declare "adder" 2 [⟨"net", "ring", 8⟩] (adderUnits ++ [⟨"pu", "fpu", "add", 7, .empty⟩]) =
        .error (.duplicateUnit "pu") := by
  have declares : declare "adder" 2 [⟨"net", "ring", 8⟩] adderUnits = .ok _ := rfl
  have clashing := declare_decides "adder" 2 [⟨"net", "ring", 8⟩]
    (adderUnits ++ [⟨"pu", "fpu", "add", 7, .empty⟩])
  obtain ⟨valid, -, permuted⟩ := declare_decides "adder" 2 [⟨"net", "ring", 8⟩] adderUnits
  obtain ⟨inside, interconnect, sole, compatible⟩ := valid.mp ⟨_, declares⟩
  obtain rfl := (List.singleton_inj.mp sole)
  refine ⟨_, declares, permuted _ declares _ adderUnits.reverse_perm, ?_⟩
  exact (clashing.2.1 _).mpr (.unit inside rfl rfl compatible (.duplicateName (by decide)))

end Topology
end MoveMachine
