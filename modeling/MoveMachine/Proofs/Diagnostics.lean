import MoveMachine.Proofs.Assembly.Placement
import MoveMachine.Proofs.LabelResolution

/-!
# Errors name the lines of what is wrong

A text that is read without an error is nothing but lexemes with blanks between them. An error is
about one place, and its line is that of this place, counted from the beginning of the first text
(`Assembler.lines_reported`): the first character of a statement, or of what stands in a gap where
nothing but blanks may be (`Assembler.Blames`). A label that is defined again is reported with the
line of its first definition as well, and a label that is never defined with the line of the move
that refers to it.

The assembler moves its line on by each gap and each lexeme, so it is at the line of a place when it
comes there; and with every label it keeps the line of its first definition
(`Assembler.Recalls`). Nothing else is needed, since an error is made from these. The first error
ends the reading of all texts (`Assembler.Stops`), so nothing is reported twice with different
lines.
-/

set_option autoImplicit false

namespace MoveMachine

open Assembly Text

namespace Assembly

variable {error : Error} {topology : Topology} {source destination statement : String} {line : Nat}

/-! ## Errors in moves -/

theorem line_ofResolve (operand : Operand) (reason : ResolveError) :
    (Error.ofResolve operand statement line reason).line = line := by
  cases reason <;> rfl

theorem line_of_readRepeated {inner : List Char} {malformed : Error} {unknown : String → Error}
    (refused : readRepeated inner malformed unknown = .error error) (isLine : malformed.line = line)
    (isLineToo : ∀ token, (unknown token).line = line) : error.line = line := by
  rw [readRepeated] at refused
  split at refused
  · rw [← Except.error.inj refused, isLine]
  · simp only at refused
    split at refused
    · rw [← Except.error.inj refused, isLine]
    · split at refused
      · split at refused
        · rw [← Except.error.inj refused, isLineToo]
        · cases refused
      · rw [← Except.error.inj refused, isLine]

theorem line_of_readPlain (refused : readPlain topology source statement line = .error error) :
    error.line = line := by
  rw [readPlain] at refused
  split at refused
  · cases refused
  · split at refused
    · split at refused
      · cases refused
      · rw [← Except.error.inj refused, line_ofResolve]
    · split at refused
      · cases refused
      · rw [← Except.error.inj refused]
        rfl

theorem line_of_readSource (refused : readSource topology source statement line = .error error) :
    error.line = line := by
  rw [readSource] at refused
  split at refused
  · split at refused
    · cases refused
    · rw [← Except.error.inj refused]
      rfl
  · split at refused
    · exact line_of_readRepeated refused rfl fun _ => rfl
    · exact line_of_readPlain refused

theorem line_of_readDestination
    (refused : readDestination topology destination statement line = .error error) :
    error.line = line := by
  rw [readDestination] at refused
  split at refused
  · cases refused
  · split at refused
    · cases refused
    · split at refused
      · rw [← Except.error.inj refused]
        rfl
      · split at refused
        · cases refused
        · rw [← Except.error.inj refused, line_ofResolve]

theorem line_of_ofOperands {origin : Source} {target : Destination}
    (refused : Draft.ofOperands statement line origin target = .error error) :
    error.line = line := by
  cases origin <;> cases target <;> cases refused
  rfl

/-- What is wrong with a move is reported with the line of the move. -/
theorem line_of_ofMove (refused : Draft.ofMove topology source destination line = .error error) :
    error.line = line := by
  change (do
    let origin ← readSource topology source (source ++ " -> " ++ destination) line
    let target ← readDestination topology destination (source ++ " -> " ++ destination) line
    Draft.ofOperands (source ++ " -> " ++ destination) line origin target) = .error error at refused
  cases origin : readSource topology source (source ++ " -> " ++ destination) line with
  | error first =>
    rw [origin] at refused
    rw [← Except.error.inj refused]
    exact line_of_readSource origin
  | ok origin' =>
    cases target : readDestination topology destination (source ++ " -> " ++ destination) line with
    | error first =>
      rw [origin, target] at refused
      rw [← Except.error.inj refused]
      exact line_of_readDestination target
    | ok target' =>
      rw [origin, target] at refused
      exact line_of_ofOperands refused

/-! ## Stray text -/

/-- Whether a gap is a text that is not blank at either end, with blanks around it. -/
structure Surrounds (gap blankBefore stray blankBehind : List Char) : Prop where
  split : gap = blankBefore ++ stray ++ blankBehind
  before : ∀ char ∈ blankBefore, isBlank char = true
  behind : ∀ char ∈ blankBehind, isBlank char = true
  nonempty : stray ≠ []
  begins : ∀ char ∈ stray.head?, isBlank char = false
  ends : ∀ char ∈ stray.getLast?, isBlank char = false

theorem not_blank_of_head?_dropWhile {text : List Char} {char : Char}
    (isFirst : char ∈ (text.dropWhile isBlank).head?) : isBlank char = false := by
  have stops := List.head?_dropWhile_not isBlank text
  rwa [Option.mem_def.mp isFirst] at stops

/-- What is left of a gap that is trimmed stands in it with blanks around it. -/
theorem exists_surrounds {gap : List Char} (nonempty : trim gap ≠ []) :
    ∃ blankBehind, Surrounds gap (gap.takeWhile isBlank) (trim gap) blankBehind := by
  have isTrim : trim gap = ((trimLeft gap).reverse.dropWhile isBlank).reverse := rfl
  -- The right end is trimmed as the left end of the reversed text.
  have parts : trim gap ++ ((trimLeft gap).reverse.takeWhile isBlank).reverse = trimLeft gap := by
    rw [isTrim, ← List.reverse_append, List.takeWhile_append_dropWhile, List.reverse_reverse]
  refine ⟨((trimLeft gap).reverse.takeWhile isBlank).reverse, ?split,
    fun _ => List.mem_takeWhile_imp, ?behind, nonempty, ?begins, ?ends⟩
  case split =>
    rw [List.append_assoc, parts]
    exact List.takeWhile_append_dropWhile.symm
  case behind =>
    intro char member
    exact List.mem_takeWhile_imp (List.mem_reverse.mp member)
  case begins =>
    intro char isFirst
    rw [← List.head?_append_of_ne_nil _ nonempty, parts] at isFirst
    exact not_blank_of_head?_dropWhile isFirst
  case ends =>
    intro char isLast
    rw [isTrim, List.getLast?_reverse] at isLast
    exact not_blank_of_head?_dropWhile isLast

/-- A gap that is refused has stray text in it, which is reported with the line of its first
character. -/
theorem stray_of_checkGap {gap : List Char} (refused : checkGap gap line = .error error) :
    ∃ blankBefore stray blankBehind, Surrounds gap blankBefore stray blankBehind ∧
      error = .unexpectedText (String.ofList stray) (line + lineBreaks blankBefore) := by
  rw [checkGap] at refused
  simp only at refused
  split at refused
  · cases refused
  · rename_i nonempty
    obtain ⟨blankBehind, surrounds⟩ := exists_surrounds (by simpa using nonempty)
    exact ⟨_, _, _, surrounds, (Except.error.inj refused).symm⟩

end Assembly

namespace Assembler

variable {assembler after : Assembler} {error : Error} {done all : List Statement}

/-! ## First definitions -/

/-- The first definition of a label. -/
def firstDefinition? (all : List Statement) (label : String) : Option Statement :=
  all.find? (·.token = .label label)

/-- Whether an assembler knows with each label the line of its first definition. -/
def Recalls (all : List Statement) (assembler : Assembler) : Prop :=
  ∀ label, (assembler.labels.lookup label).map (·.line) =
    (firstDefinition? all label).map (·.line)

theorem firstDefinition?_append (label : String) (done later : List Statement) :
    firstDefinition? (done ++ later) label =
      (firstDefinition? done label).or (firstDefinition? later label) := List.find?_append

/-- A statement that defines no label changes no first definition. -/
theorem Recalls.pass (recalls : Recalls done assembler) (same : after.labels = assembler.labels)
    {statement : Statement} (noLabel : ∀ label, statement.token ≠ .label label) :
    Recalls (done ++ [statement]) after := by
  intro label
  have nothing : firstDefinition? [statement] label = none := by
    simp [firstDefinition?, noLabel label]
  rw [same, firstDefinition?_append, nothing, Option.or_none]
  exact recalls label

theorem Recalls.define {name : String} (recalls : Recalls done assembler)
    (defines : assembler.define name = .ok after) :
    Recalls (done ++ [⟨.label name, assembler.line⟩]) after := by
  obtain ⟨-, found, rfl⟩ := define_eq_ok defines
  intro label
  have known := recalls label
  rw [firstDefinition?_append]
  by_cases same : label = name
  · subst same
    rw [found, Option.map_none, eq_comm, Option.map_eq_none_iff] at known
    rw [known, Option.none_or]
    simp [firstDefinition?]
  · have other : (label == name) = false := by simpa using same
    simp [List.lookup_cons, other, known, firstDefinition?, Ne.symm same]

theorem kept_recalls : Kept Recalls where
  advance recalls _ := recalls
  accept {done assembler after token} recalls accepts := by
    cases token with
    | comment =>
      obtain rfl := Except.ok.inj accepts
      refine recalls.pass rfl ?_
      intro label isLabel
      cases isLabel
    | label name => exact recalls.define accepts
    | move source destination =>
      obtain ⟨draft, -, rfl⟩ := addMove_eq_ok accepts
      refine recalls.pass rfl ?_
      intro label isLabel
      cases isLabel

/-- A label that is known has a first definition, and its line is the one that is known. -/
theorem Recalls.exists_first {earlier : List Place} {label : String} {definition : Definition}
    (recalls : Recalls (earlier.map Place.statement) assembler)
    (found : assembler.labels.lookup label = some definition) :
    ∃ front first between, earlier = front ++ first :: between ∧ first.token = .label label ∧
      (∀ place ∈ front, place.token ≠ .label label) ∧ definition.line = lineBehind first.front := by
  have known := recalls label
  rw [found, firstDefinition?, List.find?_map, Option.map_some, Option.map_map, eq_comm,
    Option.map_eq_some_iff] at known
  obtain ⟨first, isFirst, sameLine⟩ := known
  obtain ⟨defines, front, between, split, fresh⟩ := List.find?_eq_some_iff_append.mp isFirst
  refine ⟨front, first, between, split, of_decide_eq_true defines, ?_, sameLine.symm⟩
  intro place member
  have other := fresh place member
  rw [Bool.not_eq_true'] at other
  exact of_decide_eq_false other

/-! ## Where reading stops -/

/-- Reading stops at a gap or at a lexeme, once everything in front of it has been taken in. -/
theorem acceptPieces_error {parts : List Piece}
    (fails : assembler.acceptPieces parts = (after, .error error)) :
    ∃ done piece later taken, parts = done ++ piece :: later ∧
      assembler.acceptPieces done = (taken, .ok ()) ∧
      (checkGap piece.gap taken.line = .error error ∨
        (taken.advance piece.gap).accept piece.token = .error error) := by
  induction parts generalizing assembler with
  | nil => cases (Prod.mk.inj fails).2
  | cons piece later ih =>
    rw [acceptPieces] at fails
    cases checked : checkGap piece.gap assembler.line with
    | error first =>
      rw [checked] at fails
      obtain rfl := Except.error.inj (Prod.mk.inj fails).2
      exact ⟨[], piece, later, assembler, rfl, rfl, .inl checked⟩
    | ok =>
      cases took : (assembler.advance piece.gap).accept piece.token with
      | error first =>
        simp only [checked, took] at fails
        obtain rfl := Except.error.inj (Prod.mk.inj fails).2
        exact ⟨[], piece, later, assembler, rfl, rfl, .inr took⟩
      | ok accepted =>
        simp only [checked, took] at fails
        obtain ⟨done, last, rest, taken, rfl, accepts, stops⟩ := ih fails
        refine ⟨piece :: done, last, rest, taken, rfl, ?_, stops⟩
        simp only [acceptPieces, checked, took, accepts]

/-- What can be wrong with a statement, given those in front of it in their places. -/
theorem Recalls.accept_error {earlier : List Place} {token : Token}
    (recalls : Recalls (earlier.map Place.statement) assembler)
    (fails : assembler.accept token = .error error) :
    (∃ label, token = .label label ∧ isReserved label = true ∧
        error = .reservedLabel label assembler.line) ∨
      (∃ label front first between, token = .label label ∧ earlier = front ++ first :: between ∧
        first.token = .label label ∧ (∀ place ∈ front, place.token ≠ .label label) ∧
        error = .duplicateLabel label assembler.line (lineBehind first.front)) ∨
      ∃ source destination, token = .move source destination ∧
        Draft.ofMove assembler.topology source destination assembler.line = .error error := by
  cases token with
  | comment => cases fails
  | label label =>
    rcases define_eq_error fails with ⟨reserved, rfl⟩ | ⟨definition, found, rfl⟩
    · exact .inl ⟨label, rfl, reserved, rfl⟩
    · obtain ⟨front, first, between, split, defines, fresh, isLine⟩ := recalls.exists_first found
      rw [isLine]
      exact .inr (.inl ⟨label, front, first, between, rfl, split, defines, fresh, rfl⟩)
  | move source destination =>
    exact .inr (.inr ⟨source, destination, rfl, addMove_eq_error fails⟩)

/-! ## What an error is about -/

/-- Whether an error is about the characters in some place, when a text is read behind others. They
are stray text in a gap, or they are a lexeme of the text: the definition of a label whose name is
reserved, or which was defined in front of it, or else a move with an operand that is refused. -/
inductive Blames (topology : Topology) (before : List String) (text : String) :
    List Char → List Char → Error → Prop where
  | stray {front gap blankBefore stray blankBehind : List Char}
      (hasGap : HasGap text.toList front gap)
      (surrounds : Surrounds gap blankBefore stray blankBehind) :
      Blames topology before text (charsOf before ++ (front ++ blankBefore)) stray
        (.unexpectedText (String.ofList stray)
          (lineBehind (charsOf before ++ (front ++ blankBefore))))
  | reserved {place : Place} {label : String} (inText : place ∈ placesIn before text)
      (defines : place.token = .label label) (reserved : isReserved label = true) :
      Blames topology before text place.front place.text
        (.reservedLabel label (lineBehind place.front))
  | duplicate {done later earlier between : List Place} {first second : Place} {label : String}
      (inText : placesIn before text = done ++ second :: later)
      (split : places before ++ done = earlier ++ first :: between)
      (defines : second.token = .label label) (definesFirst : first.token = .label label)
      (fresh : ∀ place ∈ earlier, place.token ≠ .label label) :
      Blames topology before text second.front second.text
        (.duplicateLabel label (lineBehind second.front) (lineBehind first.front))
  | operand {place : Place} {source destination : String} {error : Error}
      (inText : place ∈ placesIn before text) (moves : place.token = .move source destination)
      (refused : Draft.ofMove topology source destination (lineBehind place.front) = .error error) :
      Blames topology before text place.front place.text error

variable {topology : Topology} {before : List String} {text : String}

/-- An error has the line of what it is about. -/
theorem Blames.line_eq {front statement : List Char}
    (blames : Blames topology before text front statement error) :
    error.line = lineBehind front := by
  cases blames with
  | stray | reserved | duplicate => rfl
  | operand inText moves refused => exact line_of_ofMove refused

/-- What an error is about stands in the text that is read. -/
theorem Blames.there {front statement : List Char}
    (blames : Blames topology before text front statement error) :
    ∃ inner rest, front = charsOf before ++ inner ∧ text.toList = inner ++ statement ++ rest := by
  have ofPlace {place : Place} (member : place ∈ placesIn before text) :
      ∃ inner rest, place.front = charsOf before ++ inner ∧
        text.toList = inner ++ place.text ++ rest := by
    obtain ⟨inner, isFront⟩ := front_of_mem_placePieces member
    obtain ⟨rest, whole⟩ := (stands_of_mem_placesIn member).there
    rw [← isFront, List.append_assoc, List.append_assoc, List.append_cancel_left_eq] at whole
    exact ⟨inner, rest, isFront.symm, by rw [← whole, List.append_assoc]⟩
  cases blames with
  | @stray front gap blankBefore stray blankBehind hasGap surrounds =>
    obtain ⟨rest, whole⟩ := hasGap.there
    refine ⟨front ++ blankBefore, blankBehind ++ rest, rfl, ?_⟩
    rw [← whole, surrounds.split]
    simp only [List.append_assoc]
  | reserved inText defines reserved => exact ofPlace inText
  | duplicate inText split defines definesFirst fresh =>
    exact ofPlace (inText ▸ List.mem_append_right _ List.mem_cons_self)
  | operand inText moves refused => exact ofPlace inText

/-- An assembler that has read some texts without an error is at the line behind them and knows the
first definitions in them. -/
structure Ready (topology : Topology) (before : List String) (assembler : Assembler) : Prop where
  topology : assembler.topology = topology
  line : assembler.line = lineBehind (charsOf before)
  failure : assembler.failure = none
  recalls : Recalls ((places before).map Place.statement) assembler
  accounts : assembler.Accounts ((places before).map Place.statement)

theorem ready_parseAll
    (succeed : ∀ result ∈ ((empty topology).parseAll before).2, result = .ok ()) :
    Ready topology before ((empty topology).parseAll before).1 := by
  have keeps := keeps_parseAll rfl succeed
  have nothingKnown : Recalls [] (empty topology) := fun label => rfl
  have recalls := kept_recalls.parseAll nothingKnown rfl succeed
  have accounts := kept_accounts.parseAll (accounts_empty topology) rfl succeed
  have statements : statements (empty topology).line before = _ := statements_eq before
  rw [statements, List.nil_append] at recalls accounts
  exact ⟨keeps.topology, keeps.line, keeps.failure, recalls, accounts⟩

namespace Ready

variable {taken : Assembler} {parts : List Piece}

/-- What is known inside a text, behind some of its lexemes. -/
theorem recalls_taken (ready : Ready topology before assembler)
    (accepts : assembler.acceptPieces parts = (taken, .ok ())) :
    Recalls ((places before ++ placePieces (charsOf before) parts).map Place.statement) taken := by
  have recalls := kept_recalls.acceptPieces ready.recalls accepts
  rwa [ready.line, statementsOf_eq, ← List.map_append] at recalls

theorem line_taken (ready : Ready topology before assembler)
    (accepts : assembler.acceptPieces parts = (taken, .ok ())) :
    taken.line = lineBehind (charsOf before ++ charsOfPieces parts) := by
  rw [lineBehind_append, ← ready.line]
  exact (keeps_acceptPieces accepts).line

theorem topology_taken (ready : Ready topology before assembler)
    (accepts : assembler.acceptPieces parts = (taken, .ok ())) : taken.topology = topology :=
  (keeps_acceptPieces accepts).topology.trans ready.topology

end Ready

/-- A gap that is refused has stray text in it. -/
theorem blames_of_checkGap {front gap : List Char} (hasGap : HasGap text.toList front gap)
    (refused : checkGap gap (lineBehind (charsOf before ++ front)) = .error error) :
    ∃ place statement, Blames topology before text place statement error := by
  obtain ⟨blankBefore, stray, blankBehind, surrounds, rfl⟩ := stray_of_checkGap refused
  rw [← lineBehind_append, List.append_assoc]
  exact ⟨_, _, .stray hasGap surrounds⟩

/-- A lexeme that is refused is that of a statement with which something is wrong. -/
theorem blames_of_accept {done later : List Place} {place : Place}
    (inText : placesIn before text = done ++ place :: later)
    (recalls : Recalls ((places before ++ done).map Place.statement) assembler)
    (isTopology : assembler.topology = topology) (isLine : assembler.line = lineBehind place.front)
    (fails : assembler.accept place.token = .error error) :
    ∃ front statement, Blames topology before text front statement error := by
  have member : place ∈ placesIn before text :=
    inText ▸ List.mem_append_right _ List.mem_cons_self
  rcases recalls.accept_error fails with ⟨label, defines, reserved, rfl⟩ |
    ⟨label, front, first, between, defines, split, definesFirst, fresh, rfl⟩ |
    ⟨source, destination, moves, refused⟩
  · rw [isLine]
    exact ⟨_, _, .reserved member defines reserved⟩
  · rw [isLine]
    exact ⟨_, _, .duplicate inText split defines definesFirst fresh⟩
  · rw [isLine, isTopology] at refused
    exact ⟨_, _, .operand member moves refused⟩

/-- An error that ends the reading of a text is about something in it. -/
theorem Ready.blames_of_scan (ready : Ready topology before assembler)
    (fails : assembler.scan text.toList = (after, .error error)) :
    ∃ front statement, Blames topology before text front statement error := by
  rw [scan_eq_takeIn, takeIn] at fails
  cases took : assembler.acceptPieces (pieces text.toList).pieces with
  | mk taken result =>
    rw [took] at fails
    cases result with
    | ok =>
      obtain ⟨-, refused⟩ := Prod.mk.inj fails
      rw [ready.line_taken took] at refused
      exact blames_of_checkGap .behind refused
    | error first =>
      obtain rfl := Except.error.inj (Prod.mk.inj fails).2
      obtain ⟨done, piece, later, reached, split, accepts, stops⟩ := acceptPieces_error took
      -- A gap is looked at from the line in front of it, a lexeme from the line behind its gap.
      rcases stops with refused | refused
      · rw [ready.line_taken accepts] at refused
        exact blames_of_checkGap (.before split) refused
      · have inText : placesIn before text = placePieces (charsOf before) done ++
            ⟨charsOf before ++ charsOfPieces done ++ piece.gap, piece.token, piece.text⟩ ::
              placePieces (charsOf before ++ charsOfPieces done ++ (piece.gap ++ piece.text))
                later := by
          rw [placesIn, split, placePieces_append]
          rfl
        have recalls := kept_recalls.advance (ready.recalls_taken accepts) piece.gap
        have isTopology := ready.topology_taken accepts
        refine blames_of_accept inText recalls isTopology ?_ refused
        rw [lineBehind_append, ← ready.line_taken accepts]
        rfl

/-! ## The first error -/

/-- Whether reading texts ends with an error of one of them, behind others that have none. It is
recorded, and no other error is returned for the texts. -/
structure Stops (assembler : Assembler) (texts before : List String) (text : String)
    (error : Error) : Prop where
  split : ∃ later, texts = before ++ text :: later
  succeed : ∀ result ∈ (assembler.parseAll before).2, result = .ok ()
  fails : ((assembler.parseAll before).1.parse text).2 = .error error
  recorded : (assembler.parseAll texts).1.failure = some error
  returned : .error error ∈ (assembler.parseAll texts).2
  same : ∀ other, .error other ∈ (assembler.parseAll texts).2 → other = error

/-- A text that has an error ends the reading of those that begin with it. -/
theorem stops_of_parse {texts : List String} (fails : (assembler.parse text).2 = .error error) :
    assembler.Stops (text :: texts) [] text error := by
  have recorded := failure_of_parse (Prod.ext rfl fails)
  have rest := parseAll_of_failure recorded texts
  refine ⟨⟨texts, rfl⟩, by simp [parseAll], fails, ?_, ?_, ?_⟩
  · rw [parseAll, rest]
    exact recorded
  · rw [parseAll, fails]
    exact List.mem_cons_self
  · intro other member
    simp only [parseAll, fails, rest, List.mem_cons, List.mem_map] at member
    rcases member with first | ⟨_, -, later⟩
    · exact Except.error.inj first
    · exact (Except.error.inj later).symm

/-- What ends the reading of texts ends it behind a text that has no error. -/
theorem Stops.behind {texts before : List String} {first : String}
    (succeeds : (assembler.parse first).2 = .ok ())
    (stops : (assembler.parse first).1.Stops texts before text error) :
    assembler.Stops (first :: texts) (first :: before) text error where
  split := stops.split.imp fun later split => congrArg (first :: ·) split
  succeed := List.forall_mem_cons.mpr ⟨succeeds, stops.succeed⟩
  fails := stops.fails
  recorded := stops.recorded
  returned := List.mem_cons_of_mem _ stops.returned
  same := by
    intro other member
    rcases List.mem_cons.mp member with isFirst | inRest
    · rw [succeeds] at isFirst
      cases isFirst
    · exact stops.same other inRest

/-- Texts are read without an error, or reading ends with one. -/
theorem succeed_or_stops {texts : List String} (unfailed : assembler.failure = none) :
    ((∀ result ∈ (assembler.parseAll texts).2, result = .ok ()) ∧
        (assembler.parseAll texts).1.failure = none) ∨
      ∃ before text error, assembler.Stops texts before text error := by
  induction texts generalizing assembler with
  | nil => exact .inl ⟨by simp [parseAll], unfailed⟩
  | cons text later ih =>
    cases result : (assembler.parse text).2 with
    | error error => exact .inr ⟨[], text, error, stops_of_parse result⟩
    | ok =>
      have scans := (parse_eq_ok_iff unfailed).mp (Prod.ext rfl result)
      rcases ih ((keeps_scan scans).failure.trans unfailed) with
        ⟨succeed, unfailedAfter⟩ | ⟨before, last, error, stops⟩
      · exact .inl ⟨List.forall_mem_cons.mpr ⟨result, succeed⟩, unfailedAfter⟩
      · exact .inr ⟨text :: before, last, error, stops.behind result⟩

/-- An error that is returned for some texts ends their reading. -/
theorem exists_stops {texts : List String} (unfailed : assembler.failure = none)
    (returned : .error error ∈ (assembler.parseAll texts).2) :
    ∃ before text, assembler.Stops texts before text error := by
  rcases succeed_or_stops unfailed with ⟨succeed, -⟩ | ⟨before, text, first, stops⟩
  · cases succeed _ returned
  · rw [stops.same error returned]
    exact ⟨before, text, stops⟩

/-- The text that ends the reading of texts has something in it that the error is about. -/
theorem Stops.blames {texts before : List String} (stops : (empty topology).Stops texts before text
    error) : ∃ front statement, Blames topology before text front statement error := by
  have ready := ready_parseAll stops.succeed
  have fails := stops.fails
  rw [parse, ready.failure] at fails
  rcases scans : ((empty topology).parseAll before).1.scan text.toList with ⟨after, result⟩
  rw [scans] at fails
  cases result with
  | ok => cases fails
  | error first =>
    obtain rfl := Except.error.inj fails
    exact ready.blames_of_scan scans

/-! ## What is read and what is built -/

/-- A text that is read without an error is nothing but lexemes and blanks. -/
theorem covered_of_parse (succeeds : (assembler.parse text).2 = .ok ()) : Covered text.toList := by
  rw [parse] at succeeds
  split at succeeds
  · cases succeeds
  · rcases scans : assembler.scan text.toList with ⟨after, result⟩
    rw [scans] at succeeds
    cases result with
    | error => cases succeeds
    | ok =>
      rw [scan_eq_takeIn] at scans
      exact covered_of_clean (takeIn_eq_ok scans).1

/-- A move among the statements of some places is the lexeme of one of them. -/
theorem exists_of_mem_moves {all : List Place} {move : Move}
    (member : move ∈ moves (all.map Place.statement)) :
    ∃ place ∈ all, place.token = .move move.source move.destination ∧
      move.line = lineBehind place.front := by
  obtain ⟨statement, isStatement, isMove⟩ := List.mem_filterMap.mp member
  obtain ⟨⟨front, token, chars⟩, inAll, rfl⟩ := List.mem_map.mp isStatement
  cases token with
  | comment | label => cases isMove
  | move source destination =>
    obtain rfl := Option.some.inj isMove
    exact ⟨_, inAll, rfl, rfl⟩

/-- A build that fails names the line of a move that refers to a label that no text defines. -/
theorem Ready.build_error (ready : Ready topology before assembler)
    (fails : assembler.build = .error error) :
    ∃ place ∈ places before, ∃ source destination label,
      place.token = .move source destination ∧
      Move.reference? topology ⟨source, destination, lineBehind place.front⟩ = some label ∧
      (∀ other ∈ places before, other.token ≠ .label label) ∧
      error = .unknownSymbol label (lineBehind place.front) := by
  rw [ready.accounts.build_eq ready.failure] at fails
  obtain ⟨move, member, stops⟩ := exists_of_mapM_eq_error fails
  rcases ready.accounts.resolve_cases member with
    ⟨instruction, -, resolves, -⟩ | ⟨label, refers, undefined, unknown⟩
  · rw [resolves] at stops
    cases stops
  · obtain ⟨place, inTexts, moves, isLine⟩ := exists_of_mem_moves member
    rw [ready.topology] at refers
    rw [unknown, isLine] at stops
    refine ⟨place, inTexts, move.source, move.destination, label, moves, ?_, ?_,
      (Except.error.inj stops).symm⟩
    · rw [← isLine]
      exact refers
    · intro other isOther defines
      exact undefined ⟨other.statement, List.mem_map_of_mem isOther, defines⟩

/-! ## The lines of errors -/

/-- The lexemes of some texts stand in them one behind the other. A text that is read without an
error is nothing but these and blanks. The error that is returned for texts is about something in
the text that ends their reading, and one that is returned for the program, if there was none
before, about a move that refers to a label that is not defined: its line is one more than the
number of line breaks in front of this, in all the texts. -/
theorem lines_reported {texts : List String} {results : List (Except Error Unit)}
    (reads : (empty topology).parseAll texts = (assembler, results)) :
    (∀ place ∈ places texts, place.Stands (charsOf texts)) ∧
    (places texts).Pairwise Place.Precedes ∧
    (∀ text, (assembler.parse text).2 = .ok () → Covered text.toList) ∧
    (∀ error, .error error ∈ results →
      ∃ before text inner statement rest, (empty topology).Stops texts before text error ∧
        text.toList = inner ++ statement ++ rest ∧
        error.line = 1 + lineBreaks (charsOf before ++ inner) ∧
        Blames topology before text (charsOf before ++ inner) statement error) ∧
    ∀ error, assembler.build = .error error → .error error ∈ results ∨
      (∀ result ∈ results, result = .ok ()) ∧
        ∃ place ∈ places texts, ∃ source destination label,
          place.token = .move source destination ∧
          Move.reference? topology ⟨source, destination, lineBehind place.front⟩ = some label ∧
          (∀ other ∈ places texts, other.token ≠ .label label) ∧
          error = .unknownSymbol label (1 + lineBreaks place.front) := by
  obtain ⟨rfl, rfl⟩ := Prod.mk.inj reads
  refine ⟨fun place => stands_of_mem_places, pairwise_places texts, fun text => covered_of_parse,
    fun error returned => ?_, fun error fails => ?_⟩
  · obtain ⟨before, text, stops⟩ := exists_stops rfl returned
    obtain ⟨front, statement, blames⟩ := stops.blames
    obtain ⟨inner, rest, rfl, inText⟩ := blames.there
    exact ⟨before, text, inner, statement, rest, stops, inText, blames.line_eq, blames⟩
  · have unfailed : (empty topology).failure = none := rfl
    rcases succeed_or_stops unfailed with ⟨succeed, -⟩ | ⟨before, text, first, stops⟩
    · exact .inr ⟨succeed, (ready_parseAll succeed).build_error fails⟩
    · rw [build, stops.recorded] at fails
      obtain rfl := Except.error.inj fails
      exact .inl stops.returned

theorem relay_lines_reported :
    ∃ assembler : Assembler,
      (empty (.relay ⟨1, by decide, by decide⟩)).parseAll
          ["// twice\n\nend:", " $1\n->\n pc\n", " end:"] =
        (assembler, [.ok (), .ok (), .error (.duplicateLabel "end" 6 3)]) ∧
      ∃ before text inner statement rest,
        (empty (.relay ⟨1, by decide, by decide⟩)).Stops
          ["// twice\n\nend:", " $1\n->\n pc\n", " end:"] before text
          (.duplicateLabel "end" 6 3) ∧
        text.toList = inner ++ statement ++ rest ∧
        6 = 1 + lineBreaks (charsOf before ++ inner) ∧
        Blames (.relay ⟨1, by decide, by decide⟩) before text (charsOf before ++ inner) statement
          (.duplicateLabel "end" 6 3) := by
  let read := (empty (.relay ⟨1, by decide, by decide⟩)).parseAll
    ["// twice\n\nend:", " $1\n->\n pc\n", " end:"]
  have returned : read.2 = [.ok (), .ok (), .error (.duplicateLabel "end" 6 3)] := by
    decide +kernel
  have reads : read = (read.1, [.ok (), .ok (), .error (.duplicateLabel "end" 6 3)]) :=
    Prod.ext rfl returned
  obtain ⟨-, -, -, located, -⟩ := lines_reported reads
  exact ⟨read.1, reads, located _ (by simp)⟩

end Assembler
end MoveMachine
