import MoveMachine.Kernel

/-!
# Repeated micro-ops

A micro-op asks for an operation a number of times. The micro-ops that a unit has taken so
far ask for a list of operations (`Word.asked`), which the unit executes one after the
other, and it takes another micro-op only when the list is used up. Therefore the number of
operations executed tells which one the unit is about, and how often it is still to be
executed (`Remains.current_eq`).

What an operation works on is found by its position: the operations executed are paired
with what was taken for them. The pairs stay when there are more operations
(`zip_of_more`), and each execution adds one (`zip_of_next`).
-/

set_option autoImplicit false

namespace MoveMachine

variable {Op : Type}

/-! ## What is asked for -/

namespace Word

/-- The operations that micro-ops ask for, each as often as it is to be executed. A word with the
opcode of no operation asks for nothing. -/
def asked (ofCode? : Nat → Option Op) (words : List Word) : List Op :=
  words.flatMap fun word => (ofCode? word.opcode).elim [] (List.replicate word.repetitions)

variable {ofCode? : Nat → Option Op} {word : Word}

theorem asked_append (words : List Word) {op : Op} (decodes : ofCode? word.opcode = some op) :
    asked ofCode? (words ++ [word]) =
      asked ofCode? words ++ List.replicate word.repetitions op := by
  simp [asked, decodes]

theorem decodes_append {words : List Word} {op : Op}
    (earlier : ∀ other ∈ words, (ofCode? other.opcode).isSome = true)
    (decodes : ofCode? word.opcode = some op) :
    ∀ other ∈ words ++ [word], (ofCode? other.opcode).isSome = true := by
  intro other member
  rcases List.mem_append.mp member with isEarlier | isLast
  · exact earlier other isEarlier
  · obtain rfl := List.mem_singleton.mp isLast
    exact Option.isSome_of_mem decodes

end Word

/-! ## What remains -/

namespace Repeated

/-- The operations that are still to be executed. -/
def left : Option (Repeated Op) → List Op
  | none => []
  | some repeated => List.replicate repeated.remaining repeated.op

theorem left_ofCount? (op : Op) (count : Nat) :
    left (ofCount? op count) = List.replicate count op := by
  rw [ofCount?]
  split
  · rename_i isZero
    rw [isZero]
    rfl
  · rfl

theorem ofCount?_positive {op : Op} {count : Nat} :
    ∀ repeated, ofCount? op count = some repeated → 0 < repeated.remaining := by
  intro repeated asks
  rw [ofCount?] at asks
  split at asks
  · cases asks
  · rename_i notZero
    obtain rfl := Option.some.inj asks
    exact Nat.pos_of_ne_zero notZero

end Repeated

/-- So many of some operations are executed, and the others are executions of the current one. -/
structure Remains (ops : List Op) (done : Nat) (current : Option (Repeated Op)) : Prop where
  bounded : done ≤ ops.length
  left : ops.drop done = Repeated.left current
  positive : ∀ repeated, current = some repeated → 0 < repeated.remaining

namespace Remains

variable {ops : List Op} {done : Nat} {current : Option (Repeated Op)}

theorem start : Remains ([] : List Op) 0 none where
  bounded := Nat.le_refl 0
  left := rfl
  positive := nofun

/-- Nothing remains once all operations are executed. -/
theorem length_eq (remains : Remains ops done none) : done = ops.length :=
  Nat.le_antisymm remains.bounded (List.drop_eq_nil_iff.mp remains.left)

/-- Another micro-op asks for more operations. -/
theorem ask (remains : Remains ops done none) (op : Op) (count : Nat) :
    Remains (ops ++ List.replicate count op) done (Repeated.ofCount? op count) where
  bounded := by
    rw [List.length_append]
    exact Nat.le_add_right_of_le remains.bounded
  left := by
    rw [remains.length_eq, List.drop_left, Repeated.left_ofCount?]
  positive := Repeated.ofCount?_positive

section Execution

variable {repeated : Repeated Op} (remains : Remains ops done (some repeated))
include remains

theorem remaining_eq : repeated.remaining = ops.length - done := by
  have lengths := congrArg List.length remains.left
  rw [List.length_drop, Repeated.left, List.length_replicate] at lengths
  exact lengths.symm

/-- The current operation is the next one. -/
theorem getElem?_eq : ops[done]? = some repeated.op := by
  have positive := remains.positive repeated rfl
  have next : (ops.drop done)[0]? = some repeated.op := by
    rw [remains.left, Repeated.left, List.getElem?_replicate, if_pos positive]
  rwa [List.getElem?_drop] at next

/-- One execution is one operation more. -/
theorem execute : Remains ops (done + 1) repeated.next? where
  bounded := (List.getElem?_eq_some_iff.mp remains.getElem?_eq).1
  left := by
    rw [← List.drop_drop, remains.left, Repeated.next?, Repeated.left_ofCount?, Repeated.left,
      List.drop_replicate]
  positive := Repeated.ofCount?_positive

end Execution

/-- How many operations are executed tells what remains. -/
theorem current_eq (remains : Remains ops done current) :
    current = ops[done]?.map (⟨·, ops.length - done⟩) := by
  cases current with
  | none => rw [remains.length_eq, List.getElem?_eq_none (Nat.le_refl _), Option.map_none]
  | some repeated => rw [remains.getElem?_eq, Option.map_some, ← remains.remaining_eq]

theorem isSome_iff (remains : Remains ops done current) :
    current.isSome = true ↔ done < ops.length := by
  rw [remains.current_eq, Option.isSome_map, Option.isSome_iff_exists]
  constructor
  · rintro ⟨op, found⟩
    exact (List.getElem?_eq_some_iff.mp found).1
  · intro inside
    exact ⟨_, List.getElem?_eq_getElem inside⟩

end Remains

/-! ## What operations work on -/

variable {Item : Type} {ops : List Op} {taken : List Item}

/-- More operations do not matter to those that are executed. -/
theorem zip_of_more (more : List Op) (bounded : taken.length ≤ ops.length) :
    (ops ++ more).zip taken = ops.zip taken := by
  induction taken generalizing ops with
  | nil => rw [List.zip_nil_right, List.zip_nil_right]
  | cons item taken ih =>
    cases ops with
    | nil => cases bounded
    | cons op ops =>
      rw [List.cons_append, List.zip_cons_cons, List.zip_cons_cons,
        ih (Nat.le_of_succ_le_succ bounded)]

/-- The next operation works on what is taken next. -/
theorem zip_of_next {op : Op} (item : Item) (next : ops[taken.length]? = some op) :
    ops.zip (taken ++ [item]) = ops.zip taken ++ [(op, item)] := by
  induction taken generalizing ops with
  | nil =>
    cases ops with
    | nil => cases next
    | cons first ops =>
      obtain rfl := Option.some.inj next
      rw [List.nil_append, List.zip_cons_cons, List.zip_nil_right, List.zip_nil_right,
        List.nil_append]
  | cons earlier taken ih =>
    cases ops with
    | nil => cases next
    | cons first ops =>
      rw [List.cons_append, List.zip_cons_cons, List.zip_cons_cons, List.cons_append, ih next]

end MoveMachine
