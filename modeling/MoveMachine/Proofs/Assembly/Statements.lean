import MoveMachine.Proofs.Assembly.Fixups
import MoveMachine.Proofs.Traversal

/-!
# Statements

The lexemes of the texts that an assembler reads, with their lines, are the
statements of the program (`statements`). They say which moves there are (`moves`)
and which of them a label stands in front of (`labelIndex?`), wherever it is
defined. As long as no parse has failed, an assembler is the account of the
statements that it has read (`Assembler.Accounts`), of whatever texts they are.
-/

set_option autoImplicit false

namespace MoveMachine

open Assembly Text

theorem Text.lineBreaks_append (first second : List Char) :
    lineBreaks (first ++ second) = lineBreaks first + lineBreaks second := List.count_append

namespace Assembly

/-- A lexeme with the line that it begins on. -/
structure Statement where
  token : Token
  line : Nat
deriving DecidableEq

/-- The statements of a text that was taken apart, when it begins on a line. -/
def statementsOf (line : Nat) : List Piece → List Statement
  | [] => []
  | piece :: later =>
    ⟨piece.token, line + lineBreaks piece.gap⟩ ::
      statementsOf (line + lineBreaks (piece.gap ++ piece.text)) later

/-- The statements of texts that follow each other, when the first begins on a line. -/
def statements (line : Nat) : List String → List Statement
  | [] => []
  | text :: later =>
    statementsOf line (pieces text.toList).pieces ++
      statements (line + lineBreaks text.toList) later

/-- A move as it is written. -/
structure Move where
  source : String
  destination : String
  line : Nat

namespace Move

/-- A move in its normal spelling. -/
def text (move : Move) : String := move.source ++ " -> " ++ move.destination

/-- The draft of a move. -/
def draft (topology : Topology) (move : Move) : Except Error Draft :=
  Draft.ofMove topology move.source move.destination move.line

/-- What a move comes to once the labels are known. -/
def resolve (topology : Topology) (labels : List (String × Definition)) (move : Move) :
    Except Error Instruction := do
  (← move.draft topology).resolve labels

/-- The label that a move refers to. -/
def reference? (topology : Topology) (move : Move) : Option String :=
  match readSource topology move.source move.text move.line with
  | .ok (.label name) => some name
  | _ => none

end Move

/-- The instruction that brings a value to a destination. -/
def Destination.receive (value : Word) : Destination → Instruction
  | .input address => .immediate value address
  | .programCounter => .jump value
  | .nowhere => .immediate value .null

/-- The instruction of a move between operands that have been understood, given the index that each
label stands for. -/
def instruction? (indexOf : String → Option Nat) : Source → Destination → Option Instruction
  | .output source, .input destination => some (.move source destination)
  | .output source, .nowhere => some (.move source .null)
  | .output _, .programCounter => none
  | .constant value, destination => some (destination.receive value)
  | .label name, destination => (indexOf name).map fun index => destination.receive (.ofNat index)

/-- The instruction of a move, given the index that each label stands for. -/
def Move.instruction? (topology : Topology) (indexOf : String → Option Nat) (move : Move) :
    Option Instruction :=
  match readSource topology move.source move.text move.line,
    readDestination topology move.destination move.text move.line with
  | .ok source, .ok destination => Assembly.instruction? indexOf source destination
  | _, _ => none

/-- The move that a statement is, if it is one. -/
def Statement.move? : Statement → Option Move
  | ⟨.move source destination, line⟩ => some ⟨source, destination, line⟩
  | _ => none

/-- The moves among some statements, by index. -/
def moves (all : List Statement) : List Move := all.filterMap Statement.move?

/-- The number of moves in front of the definition of a label. -/
def labelIndex? (label : String) : List Statement → Option Nat
  | [] => none
  | statement :: later =>
    if statement.token = .label label then some 0
    else (labelIndex? label later).map (statement.move?.toList.length + ·)

/-! ## Labels -/

variable {label : String} {all done later : List Statement}

theorem moves_append : moves (done ++ later) = moves done ++ moves later :=
  List.filterMap_append

theorem moves_append_of_none {statement : Statement} (noMove : statement.move? = none) :
    moves (done ++ [statement]) = moves done := by
  simp [moves, noMove]

theorem labelIndex?_append :
    labelIndex? label (done ++ later) =
      (labelIndex? label done).or ((labelIndex? label later).map ((moves done).length + ·)) := by
  induction done with
  | nil => simp [labelIndex?, moves]
  | cons statement done ih =>
    by_cases here : statement.token = .label label
    · simp [labelIndex?, here]
    · have count : (moves (statement :: done)).length =
          statement.move?.toList.length + (moves done).length := by
        cases isMove : statement.move? <;> simp [moves, isMove, Nat.add_comm]
      simp only [List.cons_append, labelIndex?, here, if_false, ih, count]
      cases labelIndex? label done <;> cases labelIndex? label later <;>
        simp [Nat.add_assoc]

/-- Whether a label is defined somewhere among some statements. -/
def Defines (all : List Statement) (label : String) : Prop :=
  ∃ statement ∈ all, statement.token = .label label

/-- Exactly the labels that are defined have an index. -/
theorem labelIndex?_isSome_iff : (labelIndex? label all).isSome = true ↔ Defines all label := by
  rw [Defines]
  induction all with
  | nil => simp [labelIndex?]
  | cons statement later ih =>
    by_cases here : statement.token = .label label
    · simp [labelIndex?, here]
    · simp [labelIndex?, here, ih]

/-- Whether two statements do not define the same label. -/
def Apart (first second : Statement) : Prop :=
  ∀ label, first.token = .label label → second.token ≠ .label label

/-- If no label is defined twice, a label stands for the moves in front of its definition. -/
theorem labelIndex?_of_apart {line : Nat}
    (apart : (done ++ ⟨.label label, line⟩ :: later).Pairwise Apart) :
    labelIndex? label (done ++ ⟨.label label, line⟩ :: later) = some (moves done).length := by
  have absent : ¬Defines done label := by
    rintro ⟨statement, member, defines⟩
    have apartHere := (List.pairwise_append.mp apart).2.2 statement member _ List.mem_cons_self
    exact apartHere label defines rfl
  rw [← labelIndex?_isSome_iff, Bool.not_eq_true, Option.isSome_eq_false_iff,
    Option.isNone_iff_eq_none] at absent
  simp [labelIndex?_append, absent, labelIndex?]

/-! ## Drafts -/

/-- The index that a label stands for. -/
def indexIn (labels : List (String × Definition)) (label : String) : Option Nat :=
  (labels.lookup label).map (·.index)

variable {topology : Topology} {move : Move} {draft : Draft}
  {labels : List (String × Definition)}

/-- A draft comes to the instruction of its move, or the move refers to a label that is not
known. -/
theorem resolve_ofOperands {source : Source} {destination : Destination} {statement : String}
    {line : Nat} (labels : List (String × Definition))
    (made : Draft.ofOperands statement line source destination = .ok draft) :
    (∃ instruction, instruction? (indexIn labels) source destination = some instruction ∧
        draft.resolve labels = .ok instruction) ∨
      ∃ name, source = .label name ∧ indexIn labels name = none ∧
        draft.resolve labels = .error (.unknownSymbol name line) := by
  cases source with
  | output source =>
    cases destination with
    | programCounter => cases made
    | input | nowhere =>
      obtain rfl := Except.ok.inj made
      exact .inl ⟨_, rfl, rfl⟩
  | constant value =>
    cases destination with
    | programCounter | input | nowhere =>
      obtain rfl := Except.ok.inj made
      exact .inl ⟨_, rfl, rfl⟩
  | label name =>
    cases found : labels.lookup name with
    | none =>
      refine .inr ⟨name, rfl, by simp [indexIn, found], ?_⟩
      cases destination with
      | programCounter | input | nowhere =>
        obtain rfl := Except.ok.inj made
        simp [Draft.resolve, Draft.ofData, Reference.resolve, found, Except.map]
    | some definition =>
      refine .inl ⟨destination.receive (.ofNat definition.index), ?_, ?_⟩
      · simp [instruction?, indexIn, found]
      · cases destination with
        | programCounter | input | nowhere =>
          obtain rfl := Except.ok.inj made
          simp [Draft.resolve, Draft.ofData, Reference.resolve, found, Except.map, patch,
            Destination.receive]

namespace Move

/-- What is known of the operands of a move that has a draft. -/
theorem draft_spec (made : move.draft topology = .ok draft) :
    ∃ source destination, readSource topology move.source move.text move.line = .ok source ∧
      readDestination topology move.destination move.text move.line = .ok destination ∧
        Draft.ofOperands move.text move.line source destination = .ok draft := by
  change (do
    let origin ← readSource topology move.source move.text move.line
    let target ← readDestination topology move.destination move.text move.line
    Draft.ofOperands move.text move.line origin target) = .ok draft at made
  cases origin : readSource topology move.source move.text move.line with
  | error error => simp [origin, bind, Except.bind] at made
  | ok source =>
    cases target : readDestination topology move.destination move.text move.line with
    | error error => simp [origin, target, bind, Except.bind] at made
    | ok destination =>
      exact ⟨source, destination, rfl, rfl, by simpa [origin, target, bind, Except.bind] using made⟩

/-- A move with a draft comes to its instruction, or it refers to a label that is not known. -/
theorem resolve_cases (labels : List (String × Definition))
    (made : move.draft topology = .ok draft) :
    (∃ instruction, move.instruction? topology (indexIn labels) = some instruction ∧
        move.resolve topology labels = .ok instruction ∧
        ∀ label, move.reference? topology = some label → (indexIn labels label).isSome = true) ∨
      ∃ label, move.reference? topology = some label ∧ indexIn labels label = none ∧
        move.resolve topology labels = .error (.unknownSymbol label move.line) := by
  obtain ⟨source, destination, origin, target, combined⟩ := draft_spec made
  have resolved : move.resolve topology labels = draft.resolve labels := by
    rw [resolve, made]
    rfl
  rw [resolved]
  rcases resolve_ofOperands labels combined with ⟨instruction, means, ready⟩ | ⟨name, rfl, rest⟩
  · refine .inl ⟨instruction, by simpa [instruction?, origin, target] using means, ready, ?_⟩
    intro label refers
    cases source with
    | output | constant => simp [reference?, origin] at refers
    | label name =>
      obtain rfl : name = label := by simpa [reference?, origin] using refers
      cases known : indexIn labels name with
      | none => simp [Assembly.instruction?, known] at means
      | some index => rfl
  · exact .inr ⟨name, by simp [reference?, origin], rest⟩

end Move

end Assembly

namespace Assembler

variable {assembler after : Assembler} {done : List Statement}

/-! ## Steps of reading -/

/-- A label that is defined was neither reserved nor known, and it stands for the next move. -/
theorem define_eq_ok {name : String} (defines : assembler.define name = .ok after) :
    isReserved name = false ∧ assembler.labels.lookup name = none ∧ after = { assembler with
      labels := (name, ⟨assembler.size, assembler.line⟩) :: assembler.labels } := by
  rw [define] at defines
  split at defines
  · cases defines
  · rename_i free
    cases found : assembler.labels.lookup name with
    | some first =>
      rw [found] at defines
      cases defines
    | none =>
      rw [found] at defines
      exact ⟨Bool.eq_false_iff.mpr free, rfl, (Except.ok.inj defines).symm⟩

/-- A label is refused if it is reserved or else if it is known. -/
theorem define_eq_error {name : String} {error : Error}
    (fails : assembler.define name = .error error) :
    isReserved name = true ∧ error = .reservedLabel name assembler.line ∨
      ∃ definition, assembler.labels.lookup name = some definition ∧
        error = .duplicateLabel name assembler.line definition.line := by
  rw [define] at fails
  split at fails
  · rename_i reserved
    exact .inl ⟨reserved, (Except.error.inj fails).symm⟩
  · cases found : assembler.labels.lookup name with
    | none =>
      rw [found] at fails
      cases fails
    | some definition =>
      rw [found] at fails
      exact .inr ⟨definition, rfl, (Except.error.inj fails).symm⟩

/-- A lexeme is taken in behind blanks, and then those that are left. -/
theorem acceptPieces_cons_eq_ok {piece : Piece} {later : List Piece}
    (accepts : assembler.acceptPieces (piece :: later) = (after, .ok ())) :
    checkGap piece.gap assembler.line = .ok () ∧
      ∃ taken, (assembler.advance piece.gap).accept piece.token = .ok taken ∧
        (taken.advance piece.text).acceptPieces later = (after, .ok ()) := by
  rw [acceptPieces] at accepts
  cases checked : checkGap piece.gap assembler.line with
  | error error => simp [checked] at accepts
  | ok =>
    cases took : (assembler.advance piece.gap).accept piece.token with
    | error error => simp [checked, took] at accepts
    | ok taken =>
      simp only [checked, took] at accepts
      exact ⟨rfl, taken, rfl, accepts⟩

/-- A text is read lexeme by lexeme, up to the gap at its end. -/
theorem scan_eq_ok {text : List Char} (scans : assembler.scan text = (after, .ok ())) :
    ∃ taken, assembler.acceptPieces (pieces text).pieces = (taken, .ok ()) ∧
      after = taken.advance (pieces text).tail := by
  rw [scan] at scans
  cases took : assembler.acceptPieces (pieces text).pieces with
  | mk taken result =>
    cases result with
    | error error => simp [took] at scans
    | ok =>
      simp only [took, Prod.mk.injEq] at scans
      exact ⟨taken, rfl, scans.1.symm⟩

/-! ## What reading keeps -/

/-- Whether one assembler is at the same line as another, for the same processor and with the same
error, if any. -/
structure Keeps (assembler after : Assembler) : Prop where
  topology : after.topology = assembler.topology
  line : after.line = assembler.line
  failure : after.failure = assembler.failure

theorem keeps_accept {token : Token} (accepts : assembler.accept token = .ok after) :
    assembler.Keeps after := by
  cases token with
  | comment =>
    obtain rfl := Except.ok.inj accepts
    exact ⟨rfl, rfl, rfl⟩
  | label name =>
    obtain ⟨-, -, rfl⟩ := define_eq_ok accepts
    exact ⟨rfl, rfl, rfl⟩
  | move source destination =>
    obtain ⟨draft, -, rfl⟩ := addMove_eq_ok accepts
    exact ⟨rfl, rfl, rfl⟩

theorem advance_append (assembler : Assembler) (first second : List Char) :
    (assembler.advance first).advance second = assembler.advance (first ++ second) := by
  simp [advance, lineBreaks_append, Nat.add_assoc]

/-- Pieces that are taken in move on by their lines and keep everything else. -/
theorem keeps_acceptPieces {parts : List Piece}
    (accepts : assembler.acceptPieces parts = (after, .ok ())) :
    (assembler.advance (parts.flatMap fun piece => piece.gap ++ piece.text)).Keeps after := by
  induction parts generalizing assembler with
  | nil =>
    obtain rfl := (Prod.mk.inj accepts).1
    exact ⟨rfl, rfl, rfl⟩
  | cons piece later ih =>
    obtain ⟨-, taken, took, acceptsLater⟩ := acceptPieces_cons_eq_ok accepts
    have kept := keeps_accept took
    have rest := ih acceptsLater
    rw [List.flatMap_cons, ← advance_append, ← advance_append]
    refine ⟨rest.topology.trans kept.topology, rest.line.trans ?_,
      rest.failure.trans kept.failure⟩
    simp only [advance]
    rw [kept.line]
    rfl

/-- A text that is read moves on by its lines and keeps everything else. -/
theorem keeps_scan {text : List Char} (scans : assembler.scan text = (after, .ok ())) :
    (assembler.advance text).Keeps after := by
  obtain ⟨taken, accepts, rfl⟩ := scan_eq_ok scans
  have kept := keeps_acceptPieces accepts
  have whole : assembler.advance text =
      (assembler.advance ((pieces text).pieces.flatMap
        fun piece => piece.gap ++ piece.text)).advance (pieces text).tail := by
    rw [advance_append]
    exact congrArg assembler.advance (text_pieces text).symm
  rw [whole]
  exact ⟨kept.topology, congrArg (· + lineBreaks (pieces text).tail) kept.line, kept.failure⟩

/-- A parse without an error is a scan without an error. -/
theorem parse_eq_ok_iff {text : String} (unfailed : assembler.failure = none) :
    assembler.parse text = (after, .ok ()) ↔ assembler.scan text.toList = (after, .ok ()) := by
  rw [parse, unfailed]
  obtain ⟨scanned, result⟩ := assembler.scan text.toList
  cases result <;> simp

/-! ## Reading -/

/-- An assembler that has read some statements and has met no error. -/
structure Accounts (all : List Statement) (assembler : Assembler) : Prop where
  drafts : ∃ drafts, assembler.Holds drafts ∧
    List.Forall₂ (fun move draft => Move.draft assembler.topology move = .ok draft) (moves all)
      drafts
  labels : ∀ label, indexIn assembler.labels label = labelIndex? label all
  apart : all.Pairwise Apart

theorem accounts_empty (topology : Topology) : (empty topology).Accounts [] where
  drafts := ⟨[], ⟨rfl, rfl⟩, .nil⟩
  labels _ := rfl
  apart := .nil

/-- A statement that defines no label is apart from all others. -/
theorem Accounts.apart_append (accounts : assembler.Accounts done) {statement : Statement}
    (fresh : ∀ label, statement.token = .label label → ¬Defines done label) :
    (done ++ [statement]).Pairwise Apart := by
  refine List.pairwise_append.mpr ⟨accounts.apart, List.pairwise_singleton _ _, ?_⟩
  intro earlier member last isLast label defines
  obtain rfl := List.mem_singleton.mp isLast
  exact fun again => fresh label again ⟨earlier, member, defines⟩

theorem Accounts.size_eq (accounts : assembler.Accounts done) :
    assembler.size = (moves done).length := by
  obtain ⟨drafts, holds, made⟩ := accounts.drafts
  rw [holds.size_eq, made.length_eq]

/-- Moving on by lines changes nothing else. -/
theorem Accounts.advance (accounts : assembler.Accounts done) (text : List Char) :
    (assembler.advance text).Accounts done where
  drafts := by
    obtain ⟨drafts, holds, made⟩ := accounts.drafts
    exact ⟨drafts, ⟨holds.instructions, holds.fixups⟩, made⟩
  labels := accounts.labels
  apart := accounts.apart

theorem Accounts.define {name : String} (accounts : assembler.Accounts done)
    (defines : assembler.define name = .ok after) :
    after.Accounts (done ++ [⟨.label name, assembler.line⟩]) := by
  have size := accounts.size_eq
  obtain ⟨-, found, rfl⟩ := define_eq_ok defines
  obtain ⟨drafts, holds, made⟩ := accounts.drafts
  refine ⟨⟨drafts, ⟨holds.instructions, holds.fixups⟩, ?_⟩, fun label => ?_, ?_⟩
  · rw [moves_append_of_none rfl]
    exact made
  · rw [labelIndex?_append, ← accounts.labels label]
    by_cases same : label = name
    · subst same
      simp [indexIn, found, labelIndex?, size]
    · have other : (label == name) = false := by simpa using same
      simp [indexIn, List.lookup_cons, other, labelIndex?, Ne.symm same]
  · refine accounts.apart_append fun label defines => ?_
    obtain rfl := Token.label.inj defines
    rw [← labelIndex?_isSome_iff, ← accounts.labels]
    simp [indexIn, found]

theorem Accounts.addMove {source destination : String} (accounts : assembler.Accounts done)
    (adds : assembler.addMove source destination = .ok after) :
    after.Accounts (done ++ [⟨.move source destination, assembler.line⟩]) := by
  obtain ⟨drafts, holds, made⟩ := accounts.drafts
  obtain ⟨draft, isDraft, holdsAfter, same⟩ := holds.addMove adds
  refine ⟨⟨drafts ++ [draft], holdsAfter, ?_⟩, fun label => ?_, accounts.apart_append nofun⟩
  · rw [same, moves_append]
    exact List.rel_append made (.cons isDraft .nil)
  · rw [same, labelIndex?_append, accounts.labels label]
    simp [labelIndex?]

/-- A statement that is taken in is accounted for. -/
theorem Accounts.accept {token : Token} (accounts : assembler.Accounts done)
    (accepts : assembler.accept token = .ok after) :
    after.Accounts (done ++ [⟨token, assembler.line⟩]) := by
  cases token with
  | comment =>
    obtain rfl := Except.ok.inj accepts
    obtain ⟨drafts, holds, made⟩ := accounts.drafts
    refine ⟨⟨drafts, holds, ?_⟩, fun label => ?_, accounts.apart_append nofun⟩
    · rw [moves_append_of_none rfl]
      exact made
    · rw [labelIndex?_append, accounts.labels label]
      simp [labelIndex?]
  | label name => exact accounts.define accepts
  | move source destination => exact accounts.addMove accepts

/-- Reads texts one after the other. -/
def parseAll (assembler : Assembler) : List String → Assembler × List (Except Error Unit)
  | [] => (assembler, [])
  | text :: later =>
    let first := assembler.parse text
    let rest := first.1.parseAll later
    (rest.1, first.2 :: rest.2)

/-- If no text of some has an error, the first is scanned without one. -/
theorem scan_of_parseAll {text : String} {later : List String} (unfailed : assembler.failure = none)
    (parses : ∀ result ∈ (assembler.parseAll (text :: later)).2, result = .ok ()) :
    assembler.scan text.toList = ((assembler.parse text).1, .ok ()) :=
  (parse_eq_ok_iff unfailed).mp (Prod.ext rfl (parses _ List.mem_cons_self))

/-- Texts that are read move on by their lines and keep everything else. -/
theorem keeps_parseAll {texts : List String} (unfailed : assembler.failure = none)
    (parses : ∀ result ∈ (assembler.parseAll texts).2, result = .ok ()) :
    (assembler.advance (texts.flatMap String.toList)).Keeps (assembler.parseAll texts).1 := by
  induction texts generalizing assembler with
  | nil => exact ⟨rfl, rfl, rfl⟩
  | cons text later ih =>
    have kept := keeps_scan (scan_of_parseAll unfailed parses)
    have rest := ih (kept.failure.trans unfailed)
      fun result member => parses result (List.mem_cons_of_mem _ member)
    rw [List.flatMap_cons, ← advance_append]
    exact ⟨rest.topology.trans kept.topology,
      rest.line.trans (congrArg (· + lineBreaks (later.flatMap String.toList)) kept.line),
      rest.failure.trans kept.failure⟩

/-! ### From one statement to all texts -/

/-- What may be known of an assembler and the statements that it has read, if it does not depend on
the line and each statement that is taken in keeps it. -/
structure Kept (knows : List Statement → Assembler → Prop) : Prop where
  advance : ∀ {done : List Statement} {assembler : Assembler}, knows done assembler →
    ∀ text, knows done (assembler.advance text)
  accept : ∀ {done : List Statement} {assembler after : Assembler} {token : Token},
    knows done assembler → assembler.accept token = .ok after →
      knows (done ++ [⟨token, assembler.line⟩]) after

section Kept

variable {knows : List Statement → Assembler → Prop}

theorem Kept.acceptPieces (kept : Kept knows) {parts : List Piece} (known : knows done assembler)
    (accepts : assembler.acceptPieces parts = (after, .ok ())) :
    knows (done ++ statementsOf assembler.line parts) after := by
  induction parts generalizing assembler done with
  | nil =>
    obtain rfl := (Prod.mk.inj accepts).1
    simpa [statementsOf] using known
  | cons piece later ih =>
    obtain ⟨-, taken, took, acceptsLater⟩ := acceptPieces_cons_eq_ok accepts
    have knownTaken := kept.accept (kept.advance known piece.gap) took
    have line : (taken.advance piece.text).line =
        assembler.line + lineBreaks (piece.gap ++ piece.text) := by
      rw [lineBreaks_append, ← Nat.add_assoc]
      exact congrArg (· + lineBreaks piece.text) (keeps_accept took).line
    have rest := ih (kept.advance knownTaken piece.text) acceptsLater
    rw [line, List.append_assoc] at rest
    exact rest

theorem Kept.scan (kept : Kept knows) {text : List Char} (known : knows done assembler)
    (scans : assembler.scan text = (after, .ok ())) :
    knows (done ++ statementsOf assembler.line (pieces text).pieces) after := by
  obtain ⟨taken, accepts, rfl⟩ := scan_eq_ok scans
  exact kept.advance (kept.acceptPieces known accepts) _

theorem Kept.parseAll (kept : Kept knows) {texts : List String} (known : knows done assembler)
    (unfailed : assembler.failure = none)
    (parses : ∀ result ∈ (assembler.parseAll texts).2, result = .ok ()) :
    knows (done ++ statements assembler.line texts) (assembler.parseAll texts).1 := by
  induction texts generalizing assembler done with
  | nil => simpa [statements, Assembler.parseAll] using known
  | cons text later ih =>
    have scans := scan_of_parseAll unfailed parses
    have keeps := keeps_scan scans
    have knownAll := ih (kept.scan known scans) (keeps.failure.trans unfailed)
      fun result member => parses result (List.mem_cons_of_mem _ member)
    rw [keeps.line, List.append_assoc] at knownAll
    exact knownAll

end Kept

theorem kept_accounts : Kept fun done assembler => assembler.Accounts done :=
  ⟨fun accounts => accounts.advance, fun accounts => accounts.accept⟩

/-- A text that is read without an error is accounted for. -/
theorem Accounts.scan {text : List Char} (accounts : assembler.Accounts done)
    (scans : assembler.scan text = (after, .ok ())) :
    after.Accounts (done ++ statementsOf assembler.line (pieces text).pieces) :=
  kept_accounts.scan accounts scans

/-- Texts that are read without an error are accounted for. -/
theorem Accounts.parseAll {texts : List String} (accounts : assembler.Accounts done)
    (unfailed : assembler.failure = none)
    (parses : ∀ result ∈ (assembler.parseAll texts).2, result = .ok ()) :
    (assembler.parseAll texts).1.Accounts (done ++ statements assembler.line texts) ∧
      (assembler.parseAll texts).1.topology = assembler.topology ∧
      (assembler.parseAll texts).1.failure = none :=
  have keeps := keeps_parseAll unfailed parses
  ⟨kept_accounts.parseAll accounts unfailed parses, keeps.topology, keeps.failure.trans unfailed⟩

/-! ## Errors -/

variable {error : Error}

theorem parse_of_failure (failed : assembler.failure = some error) (text : String) :
    assembler.parse text = (assembler, .error error) := by
  rw [parse, failed]

/-- After an error texts are not even looked at. -/
theorem parseAll_of_failure (failed : assembler.failure = some error) (texts : List String) :
    assembler.parseAll texts = (assembler, texts.map fun _ => .error error) := by
  induction texts with
  | nil => rfl
  | cons text later ih => simp [parseAll, parse_of_failure failed, ih]

/-- The error that a parse returns is recorded. -/
theorem failure_of_parse {text : String} (fails : assembler.parse text = (after, .error error)) :
    after.failure = some error := by
  rw [parse] at fails
  split at fails
  · rename_i earlier failed
    obtain ⟨rfl, same⟩ := Prod.mk.inj fails
    rw [failed, Except.error.inj same]
  · split at fails
    · cases (Prod.mk.inj fails).2
    · obtain ⟨rfl, same⟩ := Prod.mk.inj fails
      rw [Except.error.inj same]

end Assembler
end MoveMachine
