import MoveMachine.Proofs.Assembly.Operands
import MoveMachine.Proofs.Assembly.Placement
import MoveMachine.Proofs.LabelResolution

/-!
# References to labels

What is cut out of a text as the name of a label begins with an ASCII letter or an
underscore, but behind that it may have any word characters, those of other scripts
among them (`Assembly.Spelled`). As the source of a move such a name is cut out just
the same. There it is understood only if it is an ASCII word
(`Assembly.IsLabel.readSource_eq`).

So of the labels that can be defined, those that are ASCII words can be referred to,
and no others (`Assembler.label_references`): a jump to one of them is added to the
program with the index that the label stands for, and a jump to any other is refused
where it is read, however its label was defined (`Assembler.accented_label_unreachable`).
-/

set_option autoImplicit false

namespace MoveMachine

open Assembly Text

namespace Assembly

variable {name : String}

/-! ## Names of labels -/

/-- Whether a name is spelled as the definition of a label requires. -/
def Spelled (name : String) : Prop :=
  ∃ first rest, name.toList = first :: rest ∧ isLabelStart first = true ∧
    ∀ char ∈ rest, isWordChar char = true

/-- Whether a label can have a name. -/
structure IsLabel (name : String) : Prop where
  spelled : Spelled name
  free : isReserved name = false

/-- What is spelled as the definition of a label has the name of one. -/
theorem spelled_of_spells {chars : List Char} (spells : Spells (.label name) chars) :
    Spelled name := by
  cases spells with
  | label starts continues blank => exact ⟨_, _, String.toList_ofList, starts, continues⟩

theorem spelled_of_piecesAfter (gap text : List Char) :
    ∀ piece ∈ (piecesAfter gap text).pieces, ∀ name, piece.token = .label name → Spelled name := by
  intro piece member name isLabel
  have spells := spells_of_piecesAfter gap text piece member
  rw [isLabel] at spells
  exact spelled_of_spells spells

/-! ## Names in the place of a source -/

theorem ascii_of_isLabelStart {first : Char} (starts : isLabelStart first = true) :
    isAsciiWordChar first = true := by
  simp only [isLabelStart, Bool.or_eq_true] at starts
  simp only [isAsciiWordChar, Char.isAlphanum, Bool.or_eq_true]
  tauto

/-- The characters of a label are word characters. -/
theorem Spelled.isWordChar (spelled : Spelled name) :
    ∀ char ∈ name.toList, Text.isWordChar char = true := by
  obtain ⟨first, rest, split, starts, inside⟩ := spelled
  rw [split]
  exact List.forall_mem_cons.mpr
    ⟨isWordChar_of_isAsciiWordChar (ascii_of_isLabelStart starts), inside⟩

/-- A name is an identifier if all of its characters are ASCII. -/
theorem Spelled.isIdentifier_eq (spelled : Spelled name) :
    isIdentifier name.toList = name.toList.all isAsciiWordChar := by
  obtain ⟨first, rest, split, starts, -⟩ := spelled
  rw [split, isIdentifier, List.all_cons, ascii_of_isLabelStart starts]
  exact congrArg (· && _) starts

/-- A name has no `@` in it that could separate a unit from a buffer. -/
theorem Spelled.splitAddress?_eq_none (spelled : Spelled name) :
    splitAddress? name.toList = none := by
  have noAt : name.toList.dropWhile (· != '@') = [] := by
    rw [List.dropWhile_eq_nil_iff]
    intro char member
    have isWord := spelled.isWordChar char member
    have differs : char ≠ '@' := by
      rintro rfl
      exact absurd isWord (by decide)
    simpa using differs
  rw [splitAddress?, noAt]

/-- What the name of a label means as a source. -/
theorem IsLabel.readSource_eq (isLabel : IsLabel name) (topology : Topology) (quoted : String)
    (line : Nat) :
    readSource topology name quoted line =
      if name.toList.all isAsciiWordChar then .ok (.label name)
      else .error (.malformedSource name quoted line) := by
  have free := isLabel.free
  simp only [isReserved, Bool.or_eq_false_iff, beq_eq_false_iff_ne, Option.isSome_eq_false_iff,
    Option.isNone_iff_eq_none] at free
  obtain ⟨⟨notCounter, notNull⟩, noOp⟩ := free
  obtain ⟨first, rest, split, starts, -⟩ := isLabel.spelled
  rw [Grammar.readSource_of_ascii split (ascii_of_isLabelStart starts), readPlain, noOp]
  simp [isLabel.spelled.splitAddress?_eq_none, isLabel.spelled.isIdentifier_eq, notCounter, notNull]

/-! ## A jump to a label -/

/-- The characters behind the label of a jump that is on a line of its own. -/
def arrowToCounter : List Char := [' ', '-', '>', ' ', 'p', 'c']

/-- A jump to a label is a move, whatever word characters the label has. -/
theorem Spelled.lexeme?_eq (spelled : Spelled name) :
    lexeme? (name.toList ++ (arrowToCounter ++ ['\n'])) =
      some ⟨.move name "pc", name.toList ++ arrowToCounter, ['\n']⟩ := by
  have inside := spelled.isWordChar
  obtain ⟨first, rest, split, starts, insideRest⟩ := spelled
  have noSlash : first ≠ '/' := by
    rintro rfl
    cases starts
  have noComment : comment? (name.toList ++ (arrowToCounter ++ ['\n'])) = none := by
    rw [split]
    exact comment?_of_ne noSlash _
  -- the name ends in front of the space, behind which there is the arrow and no colon
  have stops : Grammar.Stops Text.isWordChar (arrowToCounter ++ ['\n']) :=
    Grammar.stops_cons (by decide) _
  have noLabel : label? (name.toList ++ (arrowToCounter ++ ['\n'])) = none := by
    rw [split, List.cons_append, label?, if_pos starts]
    simp only [Grammar.dropWhile_run insideRest stops]
    rfl
  have isSource : source? (name.toList ++ (arrowToCounter ++ ['\n'])) =
      some (name.toList, arrowToCounter ++ ['\n']) := by
    refine Grammar.source?_of_run ?_ ?_ (Grammar.stops_cons (by decide) _)
    · rw [split]
      exact List.cons_ne_nil first rest
    · intro char member
      simp [isSourceChar, inside char member]
  have counter : destination? ['p', 'c', '\n'] = some (['p', 'c'], ['\n']) := by decide
  rw [lexeme?, noComment, noLabel, move?, isSource]
  simp [counter, arrowToCounter, isBlank]

theorem Spelled.pieces_eq (spelled : Spelled name) :
    pieces ("\n" ++ name ++ " -> pc\n").toList =
      ⟨[⟨['\n'], .move name "pc", name.toList ++ arrowToCounter⟩], ['\n']⟩ := by
  have chars : ("\n" ++ name ++ " -> pc\n").toList =
      '\n' :: (name.toList ++ (arrowToCounter ++ ['\n'])) := by
    simp [arrowToCounter]
  rw [chars, pieces, piecesAfter_of_none _ (lexeme?_of_blank rfl _),
    piecesAfter_of_some _ spelled.lexeme?_eq, pieces,
    piecesAfter_of_none _ (lexeme?_of_blank rfl _), piecesAfter_nil]
  rfl

end Assembly

namespace Assembler

variable {assembler after : Assembler} {label : String}

/-! ## Labels that were defined -/

/-- Whether the labels of an assembler all have names that a label can have. -/
def Named (assembler : Assembler) : Prop := ∀ entry ∈ assembler.labels, IsLabel entry.1

theorem Named.accept {token : Token} (named : assembler.Named)
    (spelled : ∀ name, token = .label name → Spelled name)
    (accepts : assembler.accept token = .ok after) : after.Named := by
  cases token with
  | comment =>
    obtain rfl := Except.ok.inj accepts
    exact named
  | label name =>
    obtain ⟨free, -, rfl⟩ := define_eq_ok accepts
    exact List.forall_mem_cons.mpr ⟨⟨spelled name rfl, free⟩, named⟩
  | move source destination =>
    obtain ⟨draft, -, rfl⟩ := addMove_eq_ok accepts
    exact named

theorem Named.acceptPieces {parts : List Piece} (named : assembler.Named)
    (spelled : ∀ piece ∈ parts, ∀ name, piece.token = .label name → Spelled name)
    (accepts : assembler.acceptPieces parts = (after, .ok ())) : after.Named := by
  induction parts generalizing assembler with
  | nil =>
    obtain rfl := (Prod.mk.inj accepts).1
    exact named
  | cons piece later ih =>
    obtain ⟨spelledHere, spelledLater⟩ := List.forall_mem_cons.mp spelled
    obtain ⟨-, taken, took, acceptsLater⟩ := acceptPieces_cons_eq_ok accepts
    have namedFirst : (assembler.advance piece.gap).Named := named
    have namedTaken : taken.Named := namedFirst.accept spelledHere took
    have namedThen : (taken.advance piece.text).Named := namedTaken
    exact ih namedThen spelledLater acceptsLater

theorem Named.scan {text : List Char} (named : assembler.Named)
    (scans : assembler.scan text = (after, .ok ())) : after.Named := by
  obtain ⟨taken, accepts, rfl⟩ := scan_eq_ok scans
  have namedTaken : taken.Named := named.acceptPieces (spelled_of_piecesAfter [] text) accepts
  exact namedTaken

theorem Named.parseAll {texts : List String} (named : assembler.Named)
    (unfailed : assembler.failure = none)
    (succeed : ∀ result ∈ (assembler.parseAll texts).2, result = .ok ()) :
    (assembler.parseAll texts).1.Named := by
  induction texts generalizing assembler with
  | nil => exact named
  | cons text later ih =>
    have scans := (parse_eq_ok_iff unfailed).mp
      (Prod.ext rfl (succeed _ List.mem_cons_self) :
        assembler.parse text = ((assembler.parse text).1, .ok ()))
    refine ih (named.scan scans) ((keeps_scan scans).failure.trans unfailed) ?_
    exact fun result member => succeed result (List.mem_cons_of_mem _ member)

/-- A label that stands for an index was defined, so it has the name of a label. -/
theorem Named.isLabel {all : List Statement} (named : assembler.Named)
    (accounts : assembler.Accounts all) {index : Nat} (known : labelIndex? label all = some index) :
    IsLabel label := by
  rw [← accounts.labels, indexIn, Option.map_eq_some_iff] at known
  obtain ⟨definition, found, -⟩ := known
  obtain ⟨before, later, split, -⟩ := List.lookup_eq_some_iff.mp found
  apply named (label, definition)
  rw [split]
  exact List.mem_append_right before List.mem_cons_self

/-! ## Reading a jump -/

/-- The text of a jump is read as a single move on its second line. -/
theorem outcome_scan_jump (spelled : Spelled label) (assembler : Assembler) :
    outcome (assembler.scan ("\n" ++ label ++ " -> pc\n").toList) =
      ((assembler.advance ['\n']).addMove label "pc").map fun accepted =>
        (accepted.advance (label.toList ++ arrowToCounter)).advance ['\n'] := by
  have allBlank : ∀ char ∈ ['\n'], isBlank char = true := by
    intro char member
    rw [List.mem_singleton.mp member]
    rfl
  rw [scan_eq_takeIn, spelled.pieces_eq, outcome_takeIn_cons allBlank]
  simp only [outcome_takeIn_nil allBlank]
  rfl

/-- The draft of a jump to a label. -/
theorem draft_jump (isLabel : IsLabel label) (topology : Topology) (line : Nat) :
    Draft.ofMove topology label "pc" line =
      if label.toList.all isAsciiWordChar then .ok ⟨.jump .zero, some ⟨label, line⟩⟩
      else .error (.malformedSource label (label ++ " -> pc") line) := by
  have quoted : label ++ " -> " ++ "pc" = label ++ " -> pc" := String.append_assoc
  simp only [Draft.ofMove, isLabel.readSource_eq, quoted]
  split <;> rfl

theorem addMove_jump (isLabel : IsLabel label) (assembler : Assembler) :
    assembler.addMove label "pc" =
      if label.toList.all isAsciiWordChar then .ok { assembler with
        instructions := assembler.instructions.push (.jump .zero)
        fixups := assembler.fixups.push ⟨assembler.size, ⟨label, assembler.line⟩⟩ }
      else .error (.malformedSource label (label ++ " -> pc") assembler.line) := by
  rw [addMove, draft_jump isLabel]
  split <;> rfl

/-- A label that stands for an index makes a jump to that index. -/
theorem resolve_jump (isLabel : IsLabel label) (ascii : label.toList.all isAsciiWordChar = true)
    (topology : Topology) {labels : List (String × Definition)} {index : Nat}
    (known : indexIn labels label = some index) (line : Nat) :
    Move.resolve topology labels ⟨label, "pc", line⟩ = .ok (.jump (.ofNat index)) := by
  obtain ⟨definition, found, rfl⟩ := Option.map_eq_some_iff.mp known
  rw [Move.resolve, Move.draft, draft_jump isLabel, if_pos ascii]
  simp [bind, Except.bind, Draft.resolve, Reference.resolve, found, Except.map, patch]

/-- What remains of a reading without an error is the assembler. -/
theorem eq_ok_of_outcome {reading : Assembler × Except Error Unit}
    (succeeds : outcome reading = .ok after) : reading = (after, .ok ()) := by
  obtain ⟨scanned, result⟩ := reading
  cases result with
  | error error => cases succeeds
  | ok => rw [← Except.ok.inj succeeds]

theorem Accounts.jump {all : List Statement} (accounts : assembler.Accounts all)
    (unfailed : assembler.failure = none) (isLabel : IsLabel label)
    (ascii : label.toList.all isAsciiWordChar = true) {index : Nat}
    (known : labelIndex? label all = some index) :
    ∃ after, assembler.parse ("\n" ++ label ++ " -> pc\n") = (after, .ok ()) ∧
      after.build = assembler.build.map (· ++ [.jump (.ofNat index)]) := by
  have reads := outcome_scan_jump isLabel.spelled assembler
  rw [addMove_jump isLabel, if_pos ascii] at reads
  have scans := eq_ok_of_outcome reads
  have parses := (parse_eq_ok_iff unfailed).mpr scans
  refine ⟨_, parses, ?_⟩
  have accountsAfter := accounts.scan scans
  rw [isLabel.spelled.pieces_eq] at accountsAfter
  have resolves := resolve_jump isLabel ascii assembler.topology
    ((accounts.labels label).trans known) (assembler.line + 1)
  rw [accountsAfter.build_eq ((keeps_scan scans).failure.trans unfailed),
    accounts.build_eq unfailed, moves_append, List.mapM_append]
  change (do
    let program ← (moves all).mapM (Move.resolve assembler.topology assembler.labels)
    let last ← [Move.mk label "pc" (assembler.line + 1)].mapM
      (Move.resolve assembler.topology assembler.labels)
    pure (program ++ last)) = _
  rw [List.mapM_cons, resolves]
  cases (moves all).mapM (Move.resolve assembler.topology assembler.labels) <;> rfl

theorem jump_refused (unfailed : assembler.failure = none) (isLabel : IsLabel label)
    (notAscii : label.toList.all isAsciiWordChar = false) :
    ∃ failed, assembler.parse ("\n" ++ label ++ " -> pc\n") =
      (failed, .error (.malformedSource label (label ++ " -> pc") (assembler.line + 1))) := by
  have reads := outcome_scan_jump isLabel.spelled assembler
  rw [addMove_jump isLabel, if_neg (by simp [notAscii])] at reads
  rw [parse, unfailed]
  generalize assembler.scan ("\n" ++ label ++ " -> pc\n").toList = reading at reads
  obtain ⟨scanned, result⟩ := reading
  cases result with
  | ok => cases reads
  | error error =>
    obtain rfl := Except.error.inj reads
    exact ⟨_, rfl⟩

/-- A label is referred to by a jump exactly if it is an ASCII word. If it is, the jump is added to
the program with the index that the label stands for; if it is not, the jump is refused as soon as it
is read. -/
theorem label_references (topology : Topology) {texts : List String} {assembler : Assembler}
    {results : List (Except Error Unit)}
    (reads : (empty topology).parseAll texts = (assembler, results))
    (succeed : ∀ result ∈ results, result = .ok ()) {before later : List Statement}
    {label : String} {line : Nat}
    (defined : statements 1 texts = before ++ ⟨.label label, line⟩ :: later) :
    (label.toList.all isAsciiWordChar = true →
      ∃ after, assembler.parse ("\n" ++ label ++ " -> pc\n") = (after, .ok ()) ∧
        after.build = assembler.build.map (· ++ [.jump (.ofNat (moves before).length)]) ∧
        ((∀ move ∈ moves (statements 1 texts), ∀ name, move.reference? topology = some name →
            Defines (statements 1 texts) name) →
          ∃ program, assembler.build = .ok program ∧ program.length = assembler.size)) ∧
    (label.toList.all isAsciiWordChar = false →
      ∃ failed, assembler.parse ("\n" ++ label ++ " -> pc\n") =
        (failed, .error (.malformedSource label (label ++ " -> pc") (assembler.line + 1)))) := by
  obtain ⟨rfl, rfl⟩ := Prod.mk.inj reads
  obtain ⟨accounts, same, unfailed⟩ := (accounts_empty topology).parseAll rfl succeed
  rw [List.nil_append] at accounts
  have nothingNamed : (empty topology).Named := nofun
  have named := nothingNamed.parseAll rfl succeed
  have known : labelIndex? label (statements 1 texts) = some (moves before).length := by
    have apart : (statements 1 texts).Pairwise Apart := accounts.apart
    rw [defined] at apart ⊢
    exact labelIndex?_of_apart apart
  have isLabel := named.isLabel accounts known
  constructor
  · intro ascii
    obtain ⟨after, parses, builds⟩ := accounts.jump unfailed isLabel ascii known
    refine ⟨after, parses, builds, ?_⟩
    intro references
    have complete := accounts.exists_build_iff unfailed
    rw [same] at complete
    obtain ⟨program, isBuilt⟩ := complete.mpr references
    have instructions := accounts.instructions unfailed isBuilt
    exact ⟨program, isBuilt, instructions.length_eq.symm.trans accounts.size_eq.symm⟩
  · intro notAscii
    exact jump_refused unfailed isLabel notAscii

theorem relay_label_references :
    ∃ after, ((empty (.relay ⟨1, by decide, by decide⟩)).parseAll ["$0 -> pc end:\n"]).1.parse
        "\nend -> pc\n" = (after, .ok ()) ∧
      after.build = .ok [.jump .zero, .jump (.ofNat 1)] := by
  let read := (empty (.relay ⟨1, by decide, by decide⟩)).parseAll ["$0 -> pc end:\n"]
  have succeed : read.2 = [.ok ()] := by decide +kernel
  have builds : read.1.build = .ok [.jump .zero] := by decide +kernel
  have defined : statements 1 ["$0 -> pc end:\n"] =
      [⟨.move "$0" "pc", 1⟩] ++ ⟨.label "end", 1⟩ :: [] := by decide +kernel
  have reads : (empty (.relay ⟨1, by decide, by decide⟩)).parseAll ["$0 -> pc end:\n"] =
      (read.1, [.ok ()]) := Prod.ext rfl succeed
  obtain ⟨after, parses, adds, -⟩ :=
    (label_references _ reads (by simp) defined).1 (by decide)
  refine ⟨after, parses, ?_⟩
  rw [adds, builds]
  rfl

/-- A label can be defined although no jump can refer to it. -/
theorem accented_label_unreachable :
    ∃ defined failed, (empty (.relay ⟨1, by decide, by decide⟩)).parse "aé:\n" = (defined, .ok ()) ∧
      indexIn defined.labels "aé" = some 0 ∧
      defined.parse "\naé -> pc\n" = (failed, .error (.malformedSource "aé" "aé -> pc" 3)) ∧
      failed.build = .error (.malformedSource "aé" "aé -> pc" 3) := by
  let defined := (empty (.relay ⟨1, by decide, by decide⟩)).parse "aé:\n"
  let failed := defined.1.parse "\naé -> pc\n"
  have defines : defined.2 = .ok () := by decide +kernel
  have fails : failed.2 = .error (.malformedSource "aé" "aé -> pc" 3) := by decide +kernel
  have sticks : failed.1.build = .error (.malformedSource "aé" "aé -> pc" 3) := by decide +kernel
  exact ⟨defined.1, failed.1, Prod.ext rfl defines, by decide +kernel, Prod.ext rfl fails, sticks⟩

end Assembler
end MoveMachine
