import MoveMachine.Proofs.Topology
import Mathlib.Data.Set.Function

/-!
# Names and addresses correspond

A declared topology knows its units in two ways, by their names and by their
numbers, and it knows a buffer by the layout of its unit's kind. The main result
(`Topology.names_correspond`) is that these never disagree: the names that were
declared stand for the addresses of the topology one to one, the number in an
address leads back to the unit whose name it was resolved from, and a number that
no declaration has leads nowhere.

Two facts carry it. Describing the declared units leaves exactly their
descriptions in the map (`Topology.describeAll_spec`), and in a map in order a
name resolves to an address exactly if the unit of that name lists the address
under it (`Topology.Orderly.resolve_eq_ok_iff`).
-/

set_option autoImplicit false

namespace MoveMachine

namespace NameMap

variable {α : Type}

/-- A name has a value if the two are an entry. -/
theorem find?_eq_some_iff {map : NameMap α} {name : String} {value : α} :
    map.find? name = some value ↔ (name, value) ∈ map.entries := by
  rw [find?, List.lookup_eq_some_iff]
  constructor
  · rintro ⟨before, after, split, -⟩
    rw [split]
    exact List.mem_append_right before List.mem_cons_self
  · intro member
    obtain ⟨before, after, split⟩ := List.append_of_mem member
    refine ⟨before, after, split, ?_⟩
    intro earlier isEarlier
    have ascending := map.ascending
    rw [split, List.pairwise_append] at ascending
    have below := ascending.2.2 earlier isEarlier (name, value) List.mem_cons_self
    simpa using (String.ne_of_lt below).symm

end NameMap

namespace UnitType

/-- No kind has two buffers of one name on the same side. -/
theorem nodup_buffers (type : UnitType) (side : Side) : (type.buffers side).Nodup := by
  cases type <;> cases side <;> decide

end UnitType

namespace UnitDescription

variable {unit : UnitDescription} {side : Side} {name : String} {address : Address}

/-- The address of a buffer's name is the one that the unit lists under it. -/
theorem addressOf?_eq_some_iff :
    unit.addressOf? side name = some address ↔ (name, address) ∈ unit.buffers side := by
  constructor
  · exact mem_buffers_of_addressOf?
  · intro listed
    obtain ⟨index, inside, same⟩ := List.mem_mapIdx.mp listed
    obtain ⟨rfl, rfl⟩ := Prod.mk.inj same
    have isIndex :
        (unit.type.buffers side).idxOf? (unit.type.buffers side)[index] = some index := by
      rw [List.idxOf?_eq_some_iff]
      refine ⟨inside, rfl, ?_⟩
      intro earlier before same
      have unique := (unit.type.nodup_buffers side).getElem_inj_iff.mp same
      omega
    rw [addressOf?, UnitType.indexOf?, isIndex]
    rfl

/-- A unit lists an address under every name of its layout. -/
theorem exists_mem_buffers_iff :
    (∃ address, (name, address) ∈ unit.buffers side) ↔ name ∈ unit.type.buffers side := by
  constructor
  · rintro ⟨address, listed⟩
    exact List.mem_of_getElem? (mem_buffers_iff.mp listed).2
  · intro member
    obtain ⟨index, inside, rfl⟩ := List.mem_iff_getElem.mp member
    exact ⟨_, List.mem_mapIdx.mpr ⟨index, inside, rfl⟩⟩

/-- A unit lists an address under one name at most. -/
theorem name_unique {other : String} (listed : (name, address) ∈ unit.buffers side)
    (listedToo : (other, address) ∈ unit.buffers side) : name = other :=
  Option.some.inj ((mem_buffers_iff.mp listed).2.symm.trans (mem_buffers_iff.mp listedToo).2)

end UnitDescription

/-! ## Declared units -/

/-- The description of a declared unit, if it has a known kind and a number that is in range. -/
def UnitDeclaration.description? (unitCount : Nat) (unit : UnitDeclaration) :
    Option UnitDescription := do
  let type ← UnitType.ofName? unit.type
  let number ← Topology.unitNumber? unitCount unit.number
  return { name := unit.name, type, template := unit.template, number,
           parameters := unit.parameters.mapValues ParameterValue.render }

namespace Topology

variable {unitCount : Nat} {units after : NameMap UnitDescription} {topology : Topology}
  {side : Side} {address : Address}

/-- Whether a unit of a name is among declared ones and its kind has a buffer of a name. -/
def Declares (units : List UnitDeclaration) (side : Side) (unit buffer : String) : Prop :=
  ∃ declaration ∈ units, declaration.name = unit ∧
    ∃ type, UnitType.ofName? declaration.type = some type ∧ buffer ∈ type.buffers side

theorem description?_spec {unit : UnitDeclaration} {description : UnitDescription}
    (described : unit.description? unitCount = some description) :
    description.name = unit.name ∧ UnitType.ofName? unit.type = some description.type ∧
      description.number.toNat = unit.number := by
  simp only [UnitDeclaration.description?, Option.bind_eq_bind, Option.bind_eq_some_iff]
    at described
  obtain ⟨type, isType, number, isNumber, same⟩ := described
  obtain rfl := Option.some.inj same
  refine ⟨rfl, isType, ?_⟩
  rw [unitNumber?] at isNumber
  split at isNumber
  · rename_i inRange
    obtain rfl := Option.some.inj isNumber
    exact UInt8.toNat_ofNat_of_lt' (Nat.lt_trans inRange.1 (by decide))
  · cases isNumber

/-- Describing one more unit adds its description. -/
theorem describe_adds {unit : UnitDeclaration}
    (describes : describe unitCount units unit = .ok after) :
    ∃ description, unit.description? unitCount = some description ∧
      after.values.Perm (description :: units.values) := by
  obtain ⟨fresh, type, number, isType, isNumber, -, rfl⟩ := describe_spec describes
  refine ⟨_, ?_, NameMap.values_insert_perm _ fresh⟩
  simp [UnitDeclaration.description?, isType, isNumber]

/-- Describing units adds their descriptions, and each of them has one. -/
theorem describeAll_spec {declared : List UnitDeclaration}
    (describes : describeAll unitCount units declared = .ok after) :
    (∀ unit ∈ declared, ∃ description, unit.description? unitCount = some description) ∧
      after.values.Perm
        (units.values ++ declared.filterMap (UnitDeclaration.description? unitCount)) := by
  induction declared generalizing units with
  | nil =>
    obtain rfl := Except.ok.inj describes
    exact ⟨nofun, by rw [List.filterMap_nil, List.append_nil]⟩
  | cons unit later ih =>
    rw [describeAll] at describes
    cases first : describe unitCount units unit with
    | error error =>
      rw [first] at describes
      cases describes
    | ok described =>
      rw [first] at describes
      obtain ⟨description, isDescription, adds⟩ := describe_adds first
      obtain ⟨others, rest⟩ := ih describes
      refine ⟨List.forall_mem_cons.mpr ⟨⟨description, isDescription⟩, others⟩, ?_⟩
      rw [List.filterMap_cons_some isDescription]
      exact (rest.trans (adds.append_right _)).trans List.perm_middle.symm

/-- The units of a declared topology are the descriptions of those that were declared. -/
theorem mem_values_iff {name : String} {depth : Nat} {interconnects : List InterconnectDeclaration}
    {units : List UnitDeclaration}
    (declares : declare name depth interconnects units = .ok topology)
    {description : UnitDescription} :
    description ∈ topology.units.values ↔
      ∃ unit ∈ units, unit.description? topology.interconnect.unitCount = some description := by
  have added := (describeAll_spec (declare_spec declares).2.2).2
  rw [added.mem_iff, List.mem_append, List.mem_filterMap]
  exact or_iff_right nofun

/-! ## Names -/

/-- A name leads to the unit of that name. -/
theorem Orderly.find?_eq_some_iff {units : NameMap UnitDescription} (orderly : Orderly units)
    {name : String} {unit : UnitDescription} :
    units.find? name = some unit ↔ unit ∈ units.values ∧ unit.name = name := by
  rw [NameMap.find?_eq_some_iff]
  constructor
  · intro entry
    exact ⟨List.mem_map.mpr ⟨_, entry, rfl⟩, orderly.named _ entry⟩
  · rintro ⟨member, rfl⟩
    obtain ⟨entry, isEntry, rfl⟩ := List.mem_map.mp member
    rw [orderly.named entry isEntry]
    exact isEntry

/-- A name has the address that the unit of its first part lists under its second. -/
theorem Orderly.resolve_eq_ok_iff (orderly : Orderly topology.units) {unit buffer : String} :
    topology.resolve unit buffer side = .ok address ↔
      ∃ description ∈ topology.units.values, description.name = unit ∧
        (buffer, address) ∈ description.buffers side := by
  rw [resolve, unit?]
  constructor
  · intro resolves
    split at resolves
    · cases resolves
    · rename_i description found
      split at resolves
      · cases resolves
      · rename_i listed isAddress
        obtain rfl := Except.ok.inj resolves
        obtain ⟨member, isName⟩ := orderly.find?_eq_some_iff.mp found
        exact ⟨description, member, isName, UnitDescription.addressOf?_eq_some_iff.mp isAddress⟩
  · rintro ⟨description, member, isName, listed⟩
    simp only [orderly.find?_eq_some_iff.mpr ⟨member, isName⟩,
      UnitDescription.addressOf?_eq_some_iff.mpr listed]

/-- Names of one unit, or of several, have different addresses. -/
theorem Orderly.resolve_inj (orderly : Orderly topology.units) {unit buffer unit' buffer' : String}
    (resolves : topology.resolve unit buffer side = .ok address)
    (resolvesToo : topology.resolve unit' buffer' side = .ok address) :
    unit = unit' ∧ buffer = buffer' := by
  obtain ⟨description, member, rfl, listed⟩ := orderly.resolve_eq_ok_iff.mp resolves
  obtain ⟨other, memberToo, rfl, listedToo⟩ := orderly.resolve_eq_ok_iff.mp resolvesToo
  have isNumber := (UnitDescription.mem_buffers_iff.mp listed).1
  have isOtherNumber := (UnitDescription.mem_buffers_iff.mp listedToo).1
  obtain rfl := List.inj_on_of_nodup_map orderly.numbered member memberToo
    (isNumber.symm.trans isOtherNumber)
  exact ⟨rfl, UnitDescription.name_unique listed listedToo⟩

/-- The number of a buffer's address leads to the unit whose name the address was resolved from. -/
theorem Orderly.unit_of_resolve (orderly : Orderly topology.units) {unit buffer : String}
    (resolves : topology.resolve unit buffer side = .ok address) :
    ∃ description, topology.unitNumbered? address.unit = some description ∧
      topology.unit? unit = some description ∧ description.name = unit := by
  obtain ⟨description, member, isName, listed⟩ := orderly.resolve_eq_ok_iff.mp resolves
  have isNumber := (UnitDescription.mem_buffers_iff.mp listed).1
  exact ⟨description, orderly.numbered?_eq_some_iff.mpr ⟨member, isNumber.symm⟩,
    orderly.find?_eq_some_iff.mpr ⟨member, isName⟩, isName⟩

section Declared

variable {name : String} {depth : Nat} {interconnects : List InterconnectDeclaration}
  {units : List UnitDeclaration}

/-- The names that resolve are those that were declared. -/
theorem exists_resolve_iff (declares : declare name depth interconnects units = .ok topology)
    {unit buffer : String} :
    (∃ address, topology.resolve unit buffer side = .ok address) ↔
      Declares units side unit buffer := by
  have orderly : Orderly topology.units := Declared.orderly ⟨_, _, _, _, declares⟩
  simp only [orderly.resolve_eq_ok_iff]
  constructor
  · rintro ⟨address, description, member, rfl, listed⟩
    obtain ⟨declaration, isDeclared, described⟩ := (mem_values_iff declares).mp member
    obtain ⟨sameName, sameType, -⟩ := description?_spec described
    exact ⟨declaration, isDeclared, sameName.symm, description.type, sameType,
      UnitDescription.exists_mem_buffers_iff.mp ⟨address, listed⟩⟩
  · rintro ⟨declaration, isDeclared, rfl, type, isType, inLayout⟩
    obtain ⟨description, described⟩ :=
      (describeAll_spec (declare_spec declares).2.2).1 declaration isDeclared
    obtain ⟨sameName, sameType, -⟩ := description?_spec described
    obtain rfl := Option.some.inj (isType.symm.trans sameType)
    obtain ⟨address, listed⟩ := UnitDescription.exists_mem_buffers_iff.mpr inLayout
    have member := (mem_values_iff declares).mpr ⟨declaration, isDeclared, described⟩
    exact ⟨address, description, member, sameName, listed⟩

/-- The numbers that lead nowhere are those that no declaration has. -/
theorem unitNumbered?_eq_none_iff
    (declares : declare name depth interconnects units = .ok topology) {number : UInt8} :
    topology.unitNumbered? number = none ↔
      ∀ declaration ∈ units, declaration.number ≠ number.toNat := by
  rw [unitNumbered?, numbered?, List.find?_eq_none]
  constructor
  · intro unused declaration isDeclared same
    obtain ⟨description, described⟩ :=
      (describeAll_spec (declare_spec declares).2.2).1 declaration isDeclared
    have isNumber := (description?_spec described).2.2
    apply unused description ((mem_values_iff declares).mpr ⟨declaration, isDeclared, described⟩)
    simpa using UInt8.toNat_inj.mp (isNumber.trans same)
  · intro unused description member same
    obtain ⟨declaration, isDeclared, described⟩ := (mem_values_iff declares).mp member
    have isNumber := (description?_spec described).2.2
    apply unused declaration isDeclared
    rw [← isNumber, eq_of_beq same]

/-- Names and addresses of a declared topology correspond one to one. The names that resolve are
those of the declared units with the buffers of their kinds; no two have the same address, and every
address of the topology has one. Such an address is not the reserved one, nor has it its number; its
number leads to the unit that the name says, and a number leads nowhere if no declaration has it. -/
theorem names_correspond (declares : declare name depth interconnects units = .ok topology)
    (side : Side) :
    (∀ unit buffer, (∃ address, topology.resolve unit buffer side = .ok address) ↔
      Declares units side unit buffer) ∧
    Set.BijOn (fun place : String × String => topology.resolve place.1 place.2 side)
      {place | Declares units side place.1 place.2}
      (Except.ok '' {address | topology.hasEndpoint address side = true}) ∧
    (∀ address, topology.hasEndpoint address side = true → address ≠ .null ∧ address.unit ≠ 255) ∧
    (∀ unit buffer address, topology.resolve unit buffer side = .ok address →
      ∃ description, topology.unitNumbered? address.unit = some description ∧
        topology.unit? unit = some description ∧ description.name = unit) ∧
    ∀ number, topology.unitNumbered? number = none ↔
      ∀ declaration ∈ units, declaration.number ≠ number.toNat := by
  have declared : topology.Declared := ⟨_, _, _, _, declares⟩
  have orderly := declared.orderly
  refine ⟨fun _ _ => exists_resolve_iff declares, ⟨?mapsTo, ?injOn, ?surjOn⟩, ?addressable,
    fun _ _ _ => orderly.unit_of_resolve, fun _ => unitNumbered?_eq_none_iff declares⟩
  case mapsTo =>
    rintro ⟨unit, buffer⟩ isDeclared
    obtain ⟨address, resolves⟩ := (exists_resolve_iff declares).mpr isDeclared
    exact ⟨address, declared.hasEndpoint_iff.mpr (isBuffer_of_resolve resolves), resolves.symm⟩
  case injOn =>
    rintro ⟨unit, buffer⟩ isDeclared ⟨unit', buffer'⟩ - same
    obtain ⟨address, resolves⟩ := (exists_resolve_iff declares).mpr isDeclared
    obtain ⟨rfl, rfl⟩ := orderly.resolve_inj resolves (same.symm.trans resolves)
    rfl
  case surjOn =>
    rintro - ⟨address, isEndpoint, rfl⟩
    obtain ⟨description, member, buffer, listed⟩ := declared.hasEndpoint_iff.mp isEndpoint
    have resolves : topology.resolve description.name buffer side = .ok address :=
      orderly.resolve_eq_ok_iff.mpr ⟨description, member, rfl, listed⟩
    exact ⟨(description.name, buffer), (exists_resolve_iff declares).mp ⟨address, resolves⟩,
      resolves⟩
  case addressable =>
    intro address isEndpoint
    obtain ⟨description, member, buffer, listed⟩ := declared.hasEndpoint_iff.mp isEndpoint
    have below := orderly.addressable description member
    rw [← (UnitDescription.mem_buffers_iff.mp listed).1] at below
    have notReserved : address.unit ≠ 255 := by
      intro same
      rw [same] at below
      exact absurd below (by decide)
    exact ⟨fun isNull => notReserved (isNull ▸ rfl), notReserved⟩

/-- Units whose numbers are not in the order of their names and leave gaps. -/
def adderUnits : List UnitDeclaration :=
  [⟨"pu", "pu", "add", 2, .empty⟩, ⟨"cu", "cu", "cu", 7, .empty⟩]

theorem names_correspond_adder :
    ∃ topology, declare "adder" 2 [⟨"net", "ring", 8⟩] adderUnits = .ok topology ∧
      (∃ address, topology.resolve "pu" "opc" .input = .ok address) ∧
        topology.unitNumbered? 3 = none := by
  have declares : declare "adder" 2 [⟨"net", "ring", 8⟩] adderUnits = .ok _ := rfl
  obtain ⟨resolves, -, -, -, leads⟩ := names_correspond declares .input
  refine ⟨_, declares, (resolves "pu" "opc").mpr ?_, (leads 3).mpr (by decide)⟩
  exact ⟨_, List.mem_cons_self, rfl, .arithmetic, rfl, by decide⟩

end Declared

end Topology
end MoveMachine
