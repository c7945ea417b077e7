/-!
# Maps from names

A finite map from names lists its entries in the ascending order of the names,
each name once. Listings and checks that go through a map therefore meet the
names in that order, whatever the order in which they were inserted.
-/

set_option autoImplicit false

namespace MoveMachine

/-- A finite map from names. -/
structure NameMap (α : Type) where
  /-- The names with their values. -/
  entries : List (String × α)
  /-- Each name comes before all later ones in the order of names. -/
  ascending : entries.Pairwise fun earlier later => earlier.1 < later.1
deriving DecidableEq

namespace NameMap

variable {α : Type}

/-- The map without names. -/
def empty : NameMap α := ⟨[], .nil⟩

/-- The value of a name. -/
def find? (map : NameMap α) (name : String) : Option α := map.entries.lookup name

/-- Whether a name has a value. -/
def contains (map : NameMap α) (name : String) : Bool := (map.find? name).isSome

/-- The values, in the order of their names. -/
def values (map : NameMap α) : List α := map.entries.map (·.2)

/-- The number of names. -/
def size (map : NameMap α) : Nat := map.entries.length

/-- Entries in the order of their names, with one more or with a new value for its name. -/
def insertEntry (name : String) (value : α) : List (String × α) → List (String × α)
  | [] => [(name, value)]
  | (other, kept) :: rest =>
    if name < other then (name, value) :: (other, kept) :: rest
    else if name = other then (name, value) :: rest
    else (other, kept) :: insertEntry name value rest

/-- The names after an insertion are the inserted one and those before. -/
theorem mem_insertEntry {name : String} {value : α} {entries : List (String × α)}
    {entry : String × α} (member : entry ∈ insertEntry name value entries) :
    entry = (name, value) ∨ entry ∈ entries := by
  induction entries with
  | nil => simpa [insertEntry] using member
  | cons first rest ih =>
    simp only [insertEntry] at member
    split at member
    · simpa using member
    · split at member
      · rcases List.mem_cons.mp member with inserted | kept
        · exact .inl inserted
        · exact .inr (List.mem_cons_of_mem first kept)
      · rcases List.mem_cons.mp member with head | later
        · exact .inr (head ▸ List.mem_cons_self)
        · exact (ih later).imp_right (List.mem_cons_of_mem first)

/-- An insertion keeps the order of the names. -/
theorem ascending_insertEntry (name : String) (value : α) {entries : List (String × α)}
    (ascending : entries.Pairwise fun earlier later => earlier.1 < later.1) :
    (insertEntry name value entries).Pairwise fun earlier later => earlier.1 < later.1 := by
  induction entries with
  | nil => exact List.pairwise_singleton _ _
  | cons first rest ih =>
    obtain ⟨below, ascendingRest⟩ := List.pairwise_cons.mp ascending
    simp only [insertEntry]
    split
    · rename_i before
      refine List.pairwise_cons.mpr ⟨?_, ascending⟩
      intro later member
      rcases List.mem_cons.mp member with rfl | member
      · exact before
      · exact String.lt_trans before (below later member)
    · rename_i notBefore
      split
      · rename_i same
        exact List.pairwise_cons.mpr ⟨fun later member => same ▸ below later member, ascendingRest⟩
      · rename_i different
        have after : first.1 < name := by
          rcases Decidable.em (first.1 < name) with after | notAfter
          · exact after
          · exact absurd
              (String.le_antisymm (String.not_lt.mp notAfter) (String.not_lt.mp notBefore)) different
        refine List.pairwise_cons.mpr ⟨?_, ih ascendingRest⟩
        intro later member
        rcases mem_insertEntry member with rfl | member
        · exact after
        · exact below later member

/-- The map in which a name has the given value. -/
def insert (map : NameMap α) (name : String) (value : α) : NameMap α :=
  ⟨insertEntry name value map.entries, ascending_insertEntry name value map.ascending⟩

/-- The map of a list of names and values, in which later values of a name replace earlier ones. -/
def ofList (entries : List (String × α)) : NameMap α :=
  entries.foldl (fun map (name, value) => map.insert name value) empty

/-- The map with every value changed. -/
def mapValues {β : Type} (change : α → β) (map : NameMap α) : NameMap β :=
  ⟨map.entries.map fun (name, value) => (name, change value),
    List.pairwise_map.mpr map.ascending⟩

/-- An insertion into entries changes the value of its own name only. -/
theorem lookup_insertEntry (name other : String) (value : α) (entries : List (String × α)) :
    (insertEntry name value entries).lookup other =
      if other = name then some value else entries.lookup other := by
  induction entries with
  | nil =>
    by_cases same : other = name
    · simp [insertEntry, same]
    · have differs : (other == name) = false := by simpa using same
      simp [insertEntry, List.lookup_cons, same, differs]
  | cons entry rest ih =>
    obtain ⟨first, kept⟩ := entry
    simp only [insertEntry]
    by_cases same : other = name
    · subst same
      have first_differs (different : ¬other = first) : (other == first) = false := by
        simpa using different
      split
      · simp
      · split
        · simp
        · rename_i different
          simp [List.lookup_cons, first_differs different, ih]
    · have differs : (other == name) = false := by simpa using same
      split
      · simp [List.lookup_cons, differs]
      · split
        · rename_i equal
          subst equal
          simp [List.lookup_cons, differs]
        · simp [List.lookup_cons, same, ih]

/-- A name has the value that was inserted for it last, and other names keep theirs. -/
theorem find?_insert (map : NameMap α) (name other : String) (value : α) :
    (map.insert name value).find? other = if other = name then some value else map.find? other :=
  lookup_insertEntry name other value map.entries

end NameMap
end MoveMachine
