import MoveMachine.Assembly

/-!
# Fixups

An assembler holds the moves that it has read as instructions with placeholders
and, beside them, the fixups that fill the placeholders (`Assembler.Holds`). What
it builds is what each of the moves comes to by itself once the labels are known
(`Assembler.Holds.build_eq`): every fixup finds the instruction it was made for,
and no other instruction changes.
-/

set_option autoImplicit false

namespace MoveMachine

open Assembly

namespace Assembly

/-- What a move comes to once the labels are known. -/
def Draft.resolve (labels : List (String × Definition)) (draft : Draft) :
    Except Error Instruction :=
  match draft.reference? with
  | none => .ok draft.instruction
  | some reference => (reference.resolve labels).map (patch · draft.instruction)

/-- The fixup of a move with an index, if it refers to a label. -/
def Draft.fixup? (draft : Draft) (index : Nat) : Option Fixup :=
  draft.reference?.map fun reference => ⟨index, reference⟩

/-- The fixups of moves, of which the first has an index. -/
def fixupsFrom (index : Nat) : List Draft → List Fixup
  | [] => []
  | draft :: later => (draft.fixup? index).toList ++ fixupsFrom (index + 1) later

theorem fixupsFrom_append (index : Nat) (drafts : List Draft) (last : Draft) :
    fixupsFrom index (drafts ++ [last]) =
      fixupsFrom index drafts ++ (last.fixup? (index + drafts.length)).toList := by
  induction drafts generalizing index with
  | nil => simp [fixupsFrom]
  | cons draft later ih =>
    have shifted : index + 1 + later.length = index + (later.length + 1) := by omega
    simp [fixupsFrom, ih, shifted]

/-- Fixups are carried out on the moves that they belong to, in front of which others have their
instructions already. -/
theorem applyFixups_fixupsFrom (labels : List (String × Definition)) (drafts : List Draft)
    (done : List Instruction) :
    (applyFixups labels (done ++ drafts.map (·.instruction)).toArray
        (fixupsFrom done.length drafts)).map Array.toList =
      (drafts.mapM (Draft.resolve labels)).map (done ++ ·) := by
  induction drafts generalizing done with
  | nil => simp [fixupsFrom, applyFixups, Except.map, pure, Except.pure]
  | cons draft later ih =>
    obtain ⟨instruction, reference?⟩ := draft
    -- the head comes to be the last of the instructions that are done
    have next (ready : Instruction) := ih (done ++ [ready])
    simp only [List.append_assoc, List.singleton_append, List.length_append,
      List.length_singleton] at next
    rw [List.mapM_cons]
    cases reference? with
    | none =>
      simp only [fixupsFrom, Draft.fixup?, Option.map_none, Option.toList_none, List.nil_append,
        List.map_cons, next, Draft.resolve]
      cases later.mapM (Draft.resolve labels) <;> rfl
    | some reference =>
      simp only [fixupsFrom, Draft.fixup?, Option.map_some, Option.toList_some,
        List.singleton_append, List.map_cons, applyFixups, Draft.resolve]
      cases reference.resolve labels with
      | error error => rfl
      | ok index =>
        have modified : (done ++ instruction :: later.map (·.instruction)).toArray.modify
            done.length (patch index) =
              (done ++ patch index instruction :: later.map (·.instruction)).toArray := by
          simp [List.modify_eq_take_cons_drop]
        simp only [bind, Except.bind, Except.map, modified]
        refine (next (patch index instruction)).trans ?_
        cases later.mapM (Draft.resolve labels) <;> rfl

end Assembly

namespace Assembler

variable {assembler after : Assembler} {drafts : List Draft} {source destination : String}
  {error : Error}

/-- A move is refused if it has no draft. -/
theorem addMove_eq_error (fails : assembler.addMove source destination = .error error) :
    Draft.ofMove assembler.topology source destination assembler.line = .error error := by
  cases made : Draft.ofMove assembler.topology source destination assembler.line with
  | ok draft => simp [addMove, made, bind, Except.bind, pure, Except.pure] at fails
  | error other => simpa [addMove, made, bind, Except.bind] using fails

/-- A move that is added leaves an instruction and, if it refers to a label, a fixup. -/
theorem addMove_eq_ok (adds : assembler.addMove source destination = .ok after) :
    ∃ draft, Draft.ofMove assembler.topology source destination assembler.line = .ok draft ∧
      after = { assembler with
        instructions := assembler.instructions.push draft.instruction
        fixups := draft.reference?.elim assembler.fixups fun reference =>
          assembler.fixups.push ⟨assembler.size, reference⟩ } := by
  cases made : Draft.ofMove assembler.topology source destination assembler.line with
  | error error => simp [addMove, made, bind, Except.bind] at adds
  | ok draft =>
    simp only [addMove, made, bind, Except.bind, pure, Except.pure, Except.ok.injEq] at adds
    refine ⟨draft, rfl, adds.symm.trans ?_⟩
    cases draft.reference? <;> rfl

/-- Whether an assembler holds certain moves and no others. -/
structure Holds (drafts : List Draft) (assembler : Assembler) : Prop where
  instructions : assembler.instructions.toList = drafts.map (·.instruction)
  fixups : assembler.fixups.toList = fixupsFrom 0 drafts

theorem Holds.size_eq (holds : assembler.Holds drafts) : assembler.size = drafts.length := by
  rw [size, ← Array.length_toList, holds.instructions, List.length_map]

/-- The program consists of what each move comes to. -/
theorem Holds.build_eq (holds : assembler.Holds drafts) (unfailed : assembler.failure = none) :
    assembler.build = drafts.mapM (Draft.resolve assembler.labels) := by
  have filled := applyFixups_fixupsFrom assembler.labels drafts []
  have instructions : assembler.instructions = (drafts.map (·.instruction)).toArray := by
    rw [← holds.instructions]
  rw [build, unfailed, instructions, holds.fixups]
  refine filled.trans ?_
  cases drafts.mapM (Draft.resolve assembler.labels) <;> rfl

/-- A move that is added is held behind the others. -/
theorem Holds.addMove (holds : assembler.Holds drafts)
    (adds : assembler.addMove source destination = .ok after) :
    ∃ draft, Draft.ofMove assembler.topology source destination assembler.line = .ok draft ∧
      after.Holds (drafts ++ [draft]) ∧ after = { assembler with
        instructions := after.instructions
        fixups := after.fixups } := by
  obtain ⟨⟨instruction, reference?⟩, made, rfl⟩ := addMove_eq_ok adds
  have size := holds.size_eq
  refine ⟨_, made, ⟨?_, ?_⟩, rfl⟩
  · simp [holds.instructions]
  · rw [fixupsFrom_append, ← holds.fixups]
    cases reference? <;> simp [Draft.fixup?, size]

end Assembler
end MoveMachine
