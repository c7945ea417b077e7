import Mathlib.Data.List.Forall2

/-!
# Going through lists with a step that can fail

A traversal succeeds with exactly the results of its steps (`mapM_eq_ok_iff`) and
fails with the error of the first step that fails (`mapM_eq_error`).
-/

set_option autoImplicit false

namespace MoveMachine

variable {Item Result Error : Type} {make : Item → Except Error Result} {items : List Item}

/-- What succeeds for a whole list is what succeeds for each of its items. -/
theorem mapM_eq_ok_iff {results : List Result} :
    items.mapM make = .ok results ↔
      List.Forall₂ (fun item result => make item = .ok result) items results := by
  induction items generalizing results with
  | nil => cases results <;> simp [pure, Except.pure]
  | cons item later ih =>
    rw [List.mapM_cons]
    cases first : make item with
    | error error => cases results <;> simp [first, bind, Except.bind]
    | ok result =>
      cases rest : later.mapM make with
      | error error =>
        rw [rest] at ih
        cases results <;> simp [first, ← ih, bind, Except.bind]
      | ok further =>
        rw [rest] at ih
        cases results <;> simp [first, ← ih, bind, Except.bind, pure, Except.pure]

/-- A traversal succeeds if each of its steps does, and only then. -/
theorem exists_mapM_eq_ok_iff :
    (∃ results, items.mapM make = .ok results) ↔
      ∀ item ∈ items, ∃ result, make item = .ok result := by
  simp only [mapM_eq_ok_iff]
  induction items with
  | nil => simp
  | cons item later ih =>
    rw [List.forall_mem_cons, ← ih]
    constructor
    · rintro ⟨results, made⟩
      cases made with
      | cons first rest => exact ⟨⟨_, first⟩, _, rest⟩
    · rintro ⟨⟨result, first⟩, results, rest⟩
      exact ⟨result :: results, .cons first rest⟩

/-- Steps that agree on related items go through related lists alike. -/
theorem mapM_eq_of_forall₂ {Other : Type} {others : List Other}
    {makeOther : Other → Except Error Result}
    (same : List.Forall₂ (fun item other => make item = makeOther other) items others) :
    items.mapM make = others.mapM makeOther := by
  induction same with
  | nil => rfl
  | cons first _ ih => rw [List.mapM_cons, List.mapM_cons, first, ih]

/-- What every related item has, all items of a related list have. -/
theorem forall_mem_of_forall₂ {Other : Type} {others : List Other} {related : Item → Other → Prop}
    {holds : Other → Prop} (all : List.Forall₂ related items others)
    (each : ∀ item other, related item other → holds other) : ∀ other ∈ others, holds other := by
  induction all with
  | nil => simp
  | cons first _ ih => exact List.forall_mem_cons.mpr ⟨each _ _ first, ih⟩

/-- The first step that fails ends a traversal. -/
theorem mapM_eq_error {done later : List Item} {item : Item} {error : Error}
    (earlier : ∀ other ∈ done, ∃ result, make other = .ok result)
    (fails : make item = .error error) : (done ++ item :: later).mapM make = .error error := by
  induction done with
  | nil =>
    rw [List.nil_append, List.mapM_cons, fails]
    rfl
  | cons other done ih =>
    obtain ⟨result, first⟩ := earlier other List.mem_cons_self
    have rest := ih fun another member => earlier another (List.mem_cons_of_mem _ member)
    rw [List.cons_append, List.mapM_cons, first, rest]
    rfl

/-- A traversal that fails stops at one of its items. -/
theorem exists_of_mapM_eq_error {error : Error} (fails : items.mapM make = .error error) :
    ∃ item ∈ items, make item = .error error := by
  induction items with
  | nil => cases fails
  | cons item later ih =>
    rw [List.mapM_cons] at fails
    cases first : make item with
    | error other =>
      rw [first] at fails
      exact ⟨item, List.mem_cons_self, first.trans (congrArg _ (Except.error.inj fails))⟩
    | ok result =>
      cases rest : later.mapM make with
      | error other =>
        simp only [first, rest, bind, Except.bind] at fails
        obtain ⟨last, member, stops⟩ := ih (rest.trans fails)
        exact ⟨last, List.mem_cons_of_mem item member, stops⟩
      | ok further => simp [first, rest, bind, Except.bind, pure, Except.pure] at fails

end MoveMachine
