import MoveMachine.Topology
import Mathlib.Data.List.Nodup

/-!
# Declared topologies

The checks of a declaration leave its units in order (`Topology.Orderly`): every
unit stands under its own name, no two have the same number, and none has the
number of the reserved address.

An address is a buffer of a topology if one of its units lists it
(`Topology.IsBuffer`). In a topology that was declared, the search for the unit
with a number finds this out (`Topology.Declared.hasEndpoint_iff`), and every
address that a name has is one (`Topology.isBuffer_of_resolve`).
-/

set_option autoImplicit false

namespace MoveMachine

namespace NameMap

variable {α : Type}

/-- A new name puts its value among the others. -/
theorem insertEntry_perm {name : String} (value : α) {entries : List (String × α)}
    (fresh : entries.lookup name = none) :
    (insertEntry name value entries).Perm ((name, value) :: entries) := by
  induction entries with
  | nil => exact .refl _
  | cons first rest ih =>
    have others := List.lookup_eq_none_iff.mp fresh
    obtain ⟨differs, freshRest⟩ := List.forall_mem_cons.mp others
    have different : ¬name = first.1 := by simpa using differs
    rw [insertEntry, if_neg different]
    split
    · exact .refl _
    · have further := ih (List.lookup_eq_none_iff.mpr freshRest)
      exact (further.cons first).trans (.swap _ _ rest)

theorem entries_insert_perm {map : NameMap α} {name : String} (value : α)
    (fresh : map.contains name = false) :
    (map.insert name value).entries.Perm ((name, value) :: map.entries) := by
  apply insertEntry_perm
  simpa [contains, find?] using fresh

theorem values_insert_perm {map : NameMap α} {name : String} (value : α)
    (fresh : map.contains name = false) :
    (map.insert name value).values.Perm (value :: map.values) :=
  (entries_insert_perm value fresh).map Prod.snd

theorem mem_values_of_find? {map : NameMap α} {name : String} {value : α}
    (found : map.find? name = some value) : value ∈ map.values := by
  obtain ⟨before, after, split, -⟩ := List.lookup_eq_some_iff.mp found
  simp [values, split]

end NameMap

namespace UnitDescription

/-- A unit lists an address under a name if the address has the unit's number and the index of that
name. -/
theorem mem_buffers_iff {unit : UnitDescription} {side : Side} {name : String} {address : Address} :
    (name, address) ∈ unit.buffers side ↔
      address.unit = unit.number ∧
        (unit.type.buffers side)[address.buffer.toNat]? = some name := by
  have few : (unit.type.buffers side).length < 256 := by
    cases unit.type <;> cases side <;> decide
  rw [buffers, List.mem_mapIdx]
  constructor
  · rintro ⟨index, inside, same⟩
    obtain ⟨rfl, rfl⟩ := Prod.mk.inj same
    have isByte : (UInt8.ofNat index).toNat = index :=
      UInt8.toNat_ofNat_of_lt' (Nat.lt_trans inside few)
    exact ⟨rfl, by rw [isByte, List.getElem?_eq_getElem inside]⟩
  · rintro ⟨isNumber, found⟩
    obtain ⟨inside, isName⟩ := List.getElem?_eq_some_iff.mp found
    refine ⟨address.buffer.toNat, inside, ?_⟩
    rw [isName, ← isNumber, UInt8.ofNat_toNat]

theorem mem_buffers_of_addressOf? {unit : UnitDescription} {side : Side} {name : String}
    {address : Address} (found : unit.addressOf? side name = some address) :
    (name, address) ∈ unit.buffers side := by
  obtain ⟨buffer, isIndex, rfl⟩ := Option.map_eq_some_iff.mp found
  obtain ⟨index, first, rfl⟩ := Option.map_eq_some_iff.mp isIndex
  obtain ⟨inside, isName, -⟩ := List.idxOf?_eq_some_iff.mp first
  exact List.mem_mapIdx.mpr ⟨index, inside, by rw [isName]⟩

end UnitDescription

namespace Topology

/-! ## Units in order -/

/-- Units that stand under their own names and have numbers of their own. -/
structure Orderly (units : NameMap UnitDescription) : Prop where
  named : ∀ entry ∈ units.entries, entry.2.name = entry.1
  numbered : (units.values.map (·.number)).Nodup
  addressable : ∀ unit ∈ units.values, unit.number < 255

/-- What describing one more unit does. -/
theorem describe_spec {unitCount : Nat} {units after : NameMap UnitDescription}
    {unit : UnitDeclaration} (describes : describe unitCount units unit = .ok after) :
    units.contains unit.name = false ∧ ∃ type number,
      UnitType.ofName? unit.type = some type ∧
      unitNumber? unitCount unit.number = some number ∧ numbered? units number = none ∧
      after = units.insert unit.name
        { name := unit.name, type, template := unit.template, number,
          parameters := unit.parameters.mapValues ParameterValue.render } := by
  rw [describe] at describes
  split at describes
  · cases describes
  · rename_i fresh
    split at describes
    · cases describes
    · rename_i type isType
      split at describes
      · cases describes
      · rename_i number isNumber
        split at describes
        · cases describes
        · rename_i free
          refine ⟨by simpa using fresh, type, number, isType, isNumber, free, ?_⟩
          exact (Except.ok.inj describes).symm

theorem unitNumber?_lt {unitCount declared : Nat} {number : UInt8}
    (isNumber : unitNumber? unitCount declared = some number) : number < 255 := by
  rw [unitNumber?] at isNumber
  split at isNumber
  · rename_i inRange
    obtain rfl := Option.some.inj isNumber
    rw [UInt8.lt_iff_toNat_lt, UInt8.toNat_ofNat_of_lt' (Nat.lt_trans inRange.1 (by decide))]
    exact inRange.1
  · cases isNumber

theorem orderly_empty : Orderly .empty := ⟨nofun, .nil, nofun⟩

theorem Orderly.describe {unitCount : Nat} {units after : NameMap UnitDescription}
    {unit : UnitDeclaration} (orderly : Orderly units)
    (describes : Topology.describe unitCount units unit = .ok after) : Orderly after := by
  obtain ⟨fresh, type, number, -, isNumber, free, rfl⟩ := describe_spec describes
  constructor
  · intro entry member
    rw [(NameMap.entries_insert_perm _ fresh).mem_iff] at member
    rcases List.mem_cons.mp member with rfl | earlier
    · rfl
    · exact orderly.named entry earlier
  · rw [((NameMap.values_insert_perm _ fresh).map _).nodup_iff, List.map_cons, List.nodup_cons]
    refine ⟨?_, orderly.numbered⟩
    intro taken
    obtain ⟨other, member, same⟩ := List.mem_map.mp taken
    exact List.find?_eq_none.mp free other member (by simpa using same)
  · intro other member
    rw [(NameMap.values_insert_perm _ fresh).mem_iff] at member
    rcases List.mem_cons.mp member with rfl | earlier
    · exact unitNumber?_lt isNumber
    · exact orderly.addressable other earlier

theorem Orderly.describeAll {unitCount : Nat} {units after : NameMap UnitDescription}
    {declared : List UnitDeclaration} (orderly : Orderly units)
    (describes : Topology.describeAll unitCount units declared = .ok after) : Orderly after := by
  induction declared generalizing units with
  | nil =>
    obtain rfl := Except.ok.inj describes
    exact orderly
  | cons unit later ih =>
    rw [Topology.describeAll] at describes
    cases first : Topology.describe unitCount units unit with
    | error error =>
      rw [first] at describes
      cases describes
    | ok described =>
      rw [first] at describes
      exact ih (orderly.describe first) describes

/-- Whether a topology comes from a declaration. -/
def Declared (topology : Topology) : Prop :=
  ∃ name depth interconnects units, declare name depth interconnects units = .ok topology

/-- What declaring a topology does. -/
theorem declare_spec {name : String} {depth : Nat} {interconnects : List InterconnectDeclaration}
    {units : List UnitDeclaration} {topology : Topology}
    (declares : declare name depth interconnects units = .ok topology) :
    Depth.ofNat? depth = some topology.depth ∧
      soleInterconnect name interconnects = .ok topology.interconnect ∧
      describeAll topology.interconnect.unitCount .empty units = .ok topology.units := by
  rw [declare] at declares
  cases isDepth : Depth.ofNat? depth with
  | none => simp [isDepth] at declares
  | some checked =>
    cases sole : soleInterconnect name interconnects with
    | error error => simp [isDepth, sole, bind, Except.bind] at declares
    | ok interconnect =>
      cases described : describeAll interconnect.unitCount .empty units with
      | error error => simp [isDepth, sole, described, bind, Except.bind] at declares
      | ok descriptions =>
        simp [isDepth, sole, described, bind, Except.bind, pure, Except.pure] at declares
        subst declares
        exact ⟨rfl, rfl, described⟩

theorem Declared.orderly {topology : Topology} (declared : topology.Declared) :
    Orderly topology.units := by
  obtain ⟨name, depth, interconnects, units, declares⟩ := declared
  exact orderly_empty.describeAll (declare_spec declares).2.2

/-! ## Buffers -/

/-- Whether an address is one of a unit's buffers on one side. -/
def IsBuffer (topology : Topology) (address : Address) (side : Side) : Prop :=
  ∃ unit ∈ topology.units.values, ∃ name, (name, address) ∈ unit.buffers side

variable {topology : Topology} {address : Address} {side : Side}

/-- A unit is found by its number. -/
theorem Orderly.numbered?_eq_some_iff {units : NameMap UnitDescription} (orderly : Orderly units)
    {number : UInt8} {unit : UnitDescription} :
    numbered? units number = some unit ↔ unit ∈ units.values ∧ unit.number = number := by
  constructor
  · intro found
    exact ⟨List.mem_of_find?_eq_some found, by simpa using List.find?_some found⟩
  · rintro ⟨member, rfl⟩
    have isSome : (numbered? units unit.number).isSome := by
      rw [numbered?, List.find?_isSome]
      exact ⟨unit, member, by simp⟩
    obtain ⟨other, found⟩ := Option.isSome_iff_exists.mp isSome
    have sameNumber : other.number = unit.number := by simpa using List.find?_some found
    have inUnits := List.mem_of_find?_eq_some found
    rw [found, List.inj_on_of_nodup_map orderly.numbered inUnits member sameNumber]

/-- The search for the unit with the number tells whether an address is a buffer. -/
theorem Declared.hasEndpoint_iff (declared : topology.Declared) :
    topology.hasEndpoint address side = true ↔ topology.IsBuffer address side := by
  have orderly := declared.orderly
  rw [hasEndpoint, unitNumbered?]
  constructor
  · intro isEndpoint
    cases found : numbered? topology.units address.unit with
    | none => simp [found] at isEndpoint
    | some unit =>
      obtain ⟨member, isNumber⟩ := orderly.numbered?_eq_some_iff.mp found
      have inside : address.buffer.toNat < (unit.type.buffers side).length := by
        simpa [found] using isEndpoint
      have isName := List.getElem?_eq_getElem inside
      exact ⟨unit, member, _, UnitDescription.mem_buffers_iff.mpr ⟨isNumber.symm, isName⟩⟩
  · rintro ⟨unit, member, name, listed⟩
    obtain ⟨isNumber, found⟩ := UnitDescription.mem_buffers_iff.mp listed
    rw [orderly.numbered?_eq_some_iff.mpr ⟨member, isNumber.symm⟩]
    exact decide_eq_true (List.getElem?_eq_some_iff.mp found).1

/-- The address of a name is a buffer. -/
theorem isBuffer_of_resolve {unit buffer : String}
    (resolves : topology.resolve unit buffer side = .ok address) :
    topology.IsBuffer address side := by
  rw [resolve] at resolves
  split at resolves
  · cases resolves
  · rename_i description isUnit
    split at resolves
    · cases resolves
    · rename_i found isAddress
      obtain rfl := Except.ok.inj resolves
      exact ⟨description, NameMap.mem_values_of_find? isUnit, buffer,
        UnitDescription.mem_buffers_of_addressOf? isAddress⟩

/-- The reserved address is no buffer. -/
theorem Declared.not_isBuffer_null (declared : topology.Declared) :
    ¬topology.IsBuffer .null side := by
  rintro ⟨unit, member, name, listed⟩
  have isNumber : (255 : UInt8) = unit.number := (UnitDescription.mem_buffers_iff.mp listed).1
  have below := declared.orderly.addressable unit member
  rw [← isNumber] at below
  exact absurd below (by decide)

end Topology
end MoveMachine
