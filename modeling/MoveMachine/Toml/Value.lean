import MoveMachine.Toml.Moment

/-!
# Values of a TOML document

A document is a tree of tables. How a table came about decides which later
lines may add to it: a header may complete a table that so far was only implied
by longer headers, dotted keys may extend a table that they created, and an
inline table is closed. A line changes the tree by `startTable`, `startElement`
or `insertUnderHeader`, which all refuse what would define a name twice.
-/

set_option autoImplicit false

namespace MoveMachine.Toml

/-- How a table came about. -/
inductive TableForm where
  /-- By a header of its own, or as the root of the document. -/
  | header
  /-- As a step on the way to a longer header. -/
  | implied
  /-- By a dotted key. -/
  | dotted
  /-- By a value in braces. -/
  | inline
deriving DecidableEq

/-- A value of a document. The entries of a table are listed as they were defined, each name
once. -/
inductive Value where
  | text (content : String)
  | integer (number : Int)
  /-- A float, given by its bits. -/
  | float (bits : UInt64)
  | boolean (truth : Bool)
  | moment (moment : Moment)
  | array (items : List Value)
  | table (form : TableForm) (entries : List (String × Value))
  /-- The tables that repeated headers in double brackets define, first to last. -/
  | tables (elements : List (List (String × Value)))

/-- The entries of a table. -/
abbrev Entries := List (String × Value)

/-- The entries with the value of a name replaced. -/
def Entries.replace (name : String) (value : Value) (entries : Entries) : Entries :=
  entries.map fun entry => if entry.1 == name then (name, value) else entry

/-- Changes the last element of a list. -/
def alterLast? {α : Type} (alter : α → Option α) : List α → Option (List α)
  | [] => none
  | [last] => (alter last).map ([·])
  | first :: rest => (alterLast? alter rest).map (first :: ·)

/-- Which tables a path may run through, and how it creates those that are missing. -/
structure Descent where
  /-- How missing tables come about. -/
  creates : TableForm
  /-- Whether the path may enter an existing table. -/
  enters : TableForm → Bool

/-- The path of a header runs through all tables but inline ones. -/
def Descent.header : Descent := ⟨.implied, (· != .inline)⟩

/-- A dotted key runs only through tables without a header of their own. -/
def Descent.dotted : Descent := ⟨.dotted, fun form => form == .implied || form == .dotted⟩

/-- Changes the table at the end of a path, which starts at a table of the given form. A path
through repeated tables continues in the last of them. -/
def alterTable? (descent : Descent) (alter : TableForm → Entries → Option Entries) :
    (path : List String) → TableForm → Entries → Option Entries
  | [], form, entries => alter form entries
  | name :: path, _, entries =>
    match entries.lookup name with
    | none =>
      (alterTable? descent alter path descent.creates []).map fun inner =>
        entries ++ [(name, .table descent.creates inner)]
    | some (.table form inner) =>
      if descent.enters form then
        (alterTable? descent alter path form inner).map fun changed =>
          entries.replace name (.table form changed)
      else none
    | some (.tables elements) =>
      (alterLast? (alterTable? descent alter path .header) elements).map fun changed =>
        entries.replace name (.tables changed)
    | some _ => none

/-- Adds a value under a dotted key, unless the name is taken or the key leads into a table that
dotted keys did not create. -/
def insertAtKey (form : TableForm) (path : List String) (name : String) (value : Value)
    (entries : Entries) : Option Entries :=
  alterTable? .dotted (fun form entries =>
    if (form == .dotted) == path.isEmpty then none
    else if (entries.lookup name).isSome then none
    else some (entries ++ [(name, value)])) path form entries

/-- Starts the table of a header: a new one, or one that longer headers have implied. -/
def startTable (path : List String) (name : String) (root : Entries) : Option Entries :=
  alterTable? .header (fun _ entries =>
    match entries.lookup name with
    | none => some (entries ++ [(name, .table .header [])])
    | some (.table .implied inner) => some (entries.replace name (.table .header inner))
    | some _ => none) path .header root

/-- Starts the next of the tables that a header in double brackets repeats. -/
def startElement (path : List String) (name : String) (root : Entries) : Option Entries :=
  alterTable? .header (fun _ entries =>
    match entries.lookup name with
    | none => some (entries ++ [(name, .tables [[]])])
    | some (.tables elements) => some (entries.replace name (.tables (elements ++ [[]])))
    | some _ => none) path .header root

/-- Adds a value under a dotted key of the table that the current header started. -/
def insertUnderHeader (header path : List String) (name : String) (value : Value)
    (root : Entries) : Option Entries :=
  alterTable? .header (fun form => insertAtKey form path name value) header .header root

end MoveMachine.Toml
