import MoveMachine.Proofs.Assembly.Statements
import MoveMachine.Proofs.Machine.Session

/-!
# Label resolution

A label may be used before it is defined and in another text than the one that
defines it. Whatever the texts are and however they are divided among the calls,
an assembler that has met no error builds a program exactly if every label that a
move refers to is defined, and the program is that of the moves, with the number
of moves in front of its definition for each label. The first error that a parse
meets is what every later parse and the build return
(`Assembler.labels_resolved`).
-/

set_option autoImplicit false

namespace MoveMachine

open Assembly

namespace Assembler

variable {assembler : Assembler} {all : List Statement} {label : String}

/-! ## Building -/

/-- What is built of the moves read, each by itself. -/
theorem Accounts.build_eq (accounts : assembler.Accounts all)
    (unfailed : assembler.failure = none) :
    assembler.build = (moves all).mapM (Move.resolve assembler.topology assembler.labels) := by
  obtain ⟨drafts, holds, made⟩ := accounts.drafts
  rw [holds.build_eq unfailed]
  refine (mapM_eq_of_forall₂ (made.imp fun move draft isDraft => ?_)).symm
  rw [Move.resolve, isDraft]
  rfl

/-- Each move read comes to its instruction, or it refers to a label that is not defined. -/
theorem Accounts.resolve_cases (accounts : assembler.Accounts all) {move : Move}
    (member : move ∈ moves all) :
    (∃ instruction, move.instruction? assembler.topology (labelIndex? · all) = some instruction ∧
        move.resolve assembler.topology assembler.labels = .ok instruction ∧
        ∀ label, move.reference? assembler.topology = some label → Defines all label) ∨
      ∃ label, move.reference? assembler.topology = some label ∧ ¬Defines all label ∧
        move.resolve assembler.topology assembler.labels =
          .error (.unknownSymbol label move.line) := by
  have known : indexIn assembler.labels = (labelIndex? · all) := funext accounts.labels
  obtain ⟨drafts, -, made⟩ := accounts.drafts
  obtain ⟨draft, isDraft⟩ := exists_mapM_eq_ok_iff.mp ⟨drafts, mapM_eq_ok_iff.mpr made⟩ move member
  have cases := move.resolve_cases assembler.labels isDraft
  simp only [known] at cases
  rcases cases with ⟨instruction, means, resolves, defined⟩ | ⟨label, refers, unknown, fails⟩
  · refine .inl ⟨instruction, means, resolves, fun label refers => ?_⟩
    exact labelIndex?_isSome_iff.mp (defined label refers)
  · refine .inr ⟨label, refers, ?_, fails⟩
    rw [← labelIndex?_isSome_iff, unknown]
    decide

theorem Accounts.exists_build_iff (accounts : assembler.Accounts all)
    (unfailed : assembler.failure = none) :
    (∃ program, assembler.build = .ok program) ↔ ∀ move ∈ moves all, ∀ label,
      move.reference? assembler.topology = some label → Defines all label := by
  rw [accounts.build_eq unfailed, exists_mapM_eq_ok_iff]
  refine forall₂_congr fun move member => ?_
  rcases accounts.resolve_cases member with
    ⟨instruction, -, resolves, defined⟩ | ⟨label, refers, undefined, fails⟩
  · exact iff_of_true ⟨instruction, resolves⟩ defined
  · refine iff_of_false ?_ fun defined => undefined (defined label refers)
    rintro ⟨instruction, resolves⟩
    rw [fails] at resolves
    cases resolves

/-- Each instruction of the program is that of its move. -/
theorem Accounts.instructions (accounts : assembler.Accounts all)
    (unfailed : assembler.failure = none) {program : List Instruction}
    (builds : assembler.build = .ok program) :
    List.Forall₂ (fun move instruction =>
      move.instruction? assembler.topology (labelIndex? · all) = some instruction)
        (moves all) program := by
  rw [accounts.build_eq unfailed, mapM_eq_ok_iff] at builds
  refine ((List.forall₂_and_left _ _).mpr ⟨fun _ => id, builds⟩).imp ?_
  rintro move instruction ⟨member, resolves⟩
  rcases accounts.resolve_cases member with ⟨other, means, same, -⟩ | ⟨label, -, -, fails⟩
  · rw [means, ← Except.ok.inj (same.symm.trans resolves)]
  · rw [fails] at resolves
    cases resolves

/-- The first move whose label is not defined is what a build stops at. -/
theorem Accounts.build_error (accounts : assembler.Accounts all)
    (unfailed : assembler.failure = none) {done later : List Move} {move : Move}
    (split : moves all = done ++ move :: later)
    (refers : move.reference? assembler.topology = some label) (undefined : ¬Defines all label)
    (defined : ∀ earlier ∈ done, ∀ other, earlier.reference? assembler.topology = some other →
      Defines all other) :
    assembler.build = .error (.unknownSymbol label move.line) := by
  have inMoves {other : Move} (member : other ∈ done ++ move :: later) : other ∈ moves all :=
    split ▸ member
  rw [accounts.build_eq unfailed, split]
  apply mapM_eq_error
  · intro earlier member
    rcases accounts.resolve_cases (inMoves (List.mem_append_left _ member)) with
      ⟨instruction, -, resolves, -⟩ | ⟨other, refersOther, undefinedOther, -⟩
    · exact ⟨instruction, resolves⟩
    · exact absurd (defined earlier member other refersOther) undefinedOther
  · rcases accounts.resolve_cases (inMoves (List.mem_append_right _ List.mem_cons_self)) with
      ⟨-, -, -, known⟩ | ⟨other, refersOther, -, fails⟩
    · exact absurd (known label refers) undefined
    · rw [fails, Option.some.inj (refersOther.symm.trans refers)]

/-- Labels are resolved over all texts that were read: an error sticks, and without one the program
is that of the moves, in which each label stands for the number of moves in front of its
definition, wherever that is. If a label is missing, the first move that refers to one is
reported. -/
theorem labels_resolved (topology : Topology) :
    (∀ before text error failed,
      ((empty topology).parseAll before).1.parse text = (failed, .error error) →
      failed.build = .error error ∧
        ∀ later, failed.parseAll later = (failed, later.map fun _ => .error error)) ∧
    ∀ texts assembler results, (empty topology).parseAll texts = (assembler, results) →
      (∀ result ∈ results, result = .ok ()) → ∀ all, all = statements 1 texts →
      assembler.size = (moves all).length ∧
      ((∃ program, assembler.build = .ok program) ↔
        ∀ move ∈ moves all, ∀ label, move.reference? topology = some label → Defines all label) ∧
      (∀ program, assembler.build = .ok program →
        List.Forall₂ (fun move instruction =>
          move.instruction? topology (labelIndex? · all) = some instruction) (moves all) program) ∧
      (∀ before label line after, all = before ++ ⟨.label label, line⟩ :: after →
        labelIndex? label all = some (moves before).length) ∧
      ∀ earlier move later label, moves all = earlier ++ move :: later →
        move.reference? topology = some label → ¬Defines all label →
        (∀ other ∈ earlier, ∀ name, other.reference? topology = some name → Defines all name) →
        assembler.build = .error (.unknownSymbol label move.line) := by
  refine ⟨fun before text error failed fails => ?_, ?_⟩
  · have recorded := failure_of_parse fails
    exact ⟨by rw [build, recorded], parseAll_of_failure recorded⟩
  · rintro texts assembler results reads succeed all rfl
    obtain ⟨rfl, rfl⟩ := Prod.mk.inj reads
    obtain ⟨accounts, same, unfailed⟩ := (accounts_empty topology).parseAll rfl succeed
    rw [List.nil_append] at accounts
    have topologySame : ((empty topology).parseAll texts).1.topology = topology := same
    have builds := accounts.exists_build_iff unfailed
    rw [topologySame] at builds
    refine ⟨accounts.size_eq, builds, ?_, ?_, ?_⟩
    · intro program isBuilt
      have instructions := accounts.instructions unfailed isBuilt
      rwa [topologySame] at instructions
    · intro before label line after split
      have apart := accounts.apart
      change (statements 1 texts).Pairwise Apart at apart
      rw [split] at apart ⊢
      exact labelIndex?_of_apart apart
    · intro earlier move later label split refers undefined defined
      refine accounts.build_error unfailed split (by rwa [topologySame]) undefined ?_
      rwa [topologySame]

theorem relay_labels_resolved :
    ∃ assembler failed : Assembler,
      (empty (.relay ⟨1, by decide, by decide⟩)).parseAll ["end -> pc\n", "$1 -> pc end:\n"] =
        (assembler, [.ok (), .ok ()]) ∧
      assembler.build = .ok [.jump (.ofNat 2), .jump (.ofNat 1)] ∧ assembler.size = 2 ∧
      List.Forall₂ (fun move instruction => move.instruction? (.relay ⟨1, by decide, by decide⟩)
        (labelIndex? · (statements 1 ["end -> pc\n", "$1 -> pc end:\n"])) = some instruction)
          (moves (statements 1 ["end -> pc\n", "$1 -> pc end:\n"]))
          [.jump (.ofNat 2), .jump (.ofNat 1)] ∧
      assembler.parse "end:" = (failed, .error (.duplicateLabel "end" 3 2)) ∧
      failed.build = .error (.duplicateLabel "end" 3 2) := by
  let read := (empty (.relay ⟨1, by decide, by decide⟩)).parseAll ["end -> pc\n", "$1 -> pc end:\n"]
  have succeed : read.2 = [.ok (), .ok ()] := by decide +kernel
  have builds : read.1.build = .ok [.jump (.ofNat 2), .jump (.ofNat 1)] := by decide +kernel
  have fails : (read.1.parse "end:").2 = .error (.duplicateLabel "end" 3 2) := by decide +kernel
  have two : (moves (statements 1 ["end -> pc\n", "$1 -> pc end:\n"])).length = 2 := by
    decide +kernel
  obtain ⟨sticks, resolved⟩ := labels_resolved (.relay ⟨1, by decide, by decide⟩)
  obtain ⟨size, -, instructions, -⟩ := resolved _ read.1 read.2 rfl (by simp [succeed]) _ rfl
  have failing : read.1.parse "end:" =
      ((read.1.parse "end:").1, .error (.duplicateLabel "end" 3 2)) := Prod.ext rfl fails
  exact ⟨read.1, _, Prod.ext rfl succeed, builds, size.trans two, instructions _ builds, failing,
    (sticks ["end -> pc\n", "$1 -> pc end:\n"] _ _ _ failing).1⟩

end Assembler
end MoveMachine
