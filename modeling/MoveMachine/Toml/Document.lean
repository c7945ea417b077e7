import MoveMachine.Toml.Scalar

/-!
# TOML documents

A document is read line by line: blank lines, comments, headers, and keys with
their values (`document?`). The reader answers with the entries of the root
table or with nothing; it does not tell what is wrong with a malformed document.

Brackets and braces may be nested up to `deepest`, and no key has more names.
-/

set_option autoImplicit false

namespace MoveMachine.Toml

/-- How many brackets and braces may be open at once, and how many names a key may have. -/
def deepest : Nat := 79

/-! ## Keys -/

/-- Whether a character may stand in a key without quotes. -/
def isBareKeyChar (char : Char) : Bool := char.isAlphanum || char == '_' || char == '-'

/-- The name at the front of a text: bare, or in single or double quotes on one line. -/
def readName (text : List Char) : Option (String × List Char) :=
  match text with
  | '"' :: rest => readString basicPiece rest
  | '\'' :: rest => readString literalPiece rest
  | _ =>
    let name := text.takeWhile isBareKeyChar
    if name.isEmpty then none else some (String.ofList name, text.dropWhile isBareKeyChar)

/-- The names of a dotted key, with what follows it; the bound is the length of the text. -/
def readNames : (bound : Nat) → List Char → Option (List String × List Char)
  | 0, _ => none
  | bound + 1, text => do
    let (name, rest) ← readName (text.dropWhile isSpace)
    match rest.dropWhile isSpace with
    | '.' :: rest =>
      let (names, rest) ← readNames bound rest
      return (name :: names, rest)
    | rest => return ([name], rest)

/-- A dotted key: the names that lead to a table, and the name in that table. -/
structure Key where
  path : List String
  name : String

/-- The dotted key at the front of a text, with the spaces around it. -/
def readKey (text : List Char) : Option (Key × List Char) := do
  let (names, rest) ← readNames (text.length + 1) text
  let name ← names.getLast?
  if names.length ≤ deepest then return (⟨names.dropLast, name⟩, rest) else none

/-! ## Values -/

/-- A text without the blank lines and comments at its front. In a comment, everything up to the
line break is dropped, but for characters that no comment may contain. -/
def dropTrivia (inComment : Bool) : List Char → List Char
  | [] => []
  | '\n' :: rest => dropTrivia false rest
  | '\r' :: '\n' :: rest => dropTrivia false rest
  | char :: rest =>
    if inComment then
      if isCommentChar char then dropTrivia true rest else char :: rest
    else if char == '#' then dropTrivia true rest
    else if isSpace char then dropTrivia false rest
    else char :: rest

/-- The value without brackets or braces at the front of a text. -/
def readScalar (text : List Char) : Option (Value × List Char) :=
  match stringOfText? text with
  | some (content, rest) => some (.text content, rest)
  | none =>
    match readMoment text with
    | some (moment, rest) => some (.moment moment, rest)
    | none => (scalarOfText? (text.takeWhile isScalarChar)).map fun value =>
        (value, text.dropWhile isScalarChar)

mutual

/-- The value at the front of a text, in which no more than `room` further brackets and braces may
be open at once. The bound is twice the length of the text: arrays and inline tables pass it down to
their items and entries. -/
def readValue : (bound room : Nat) → List Char → Option (Value × List Char)
  | 0, _, _ => none
  | bound + 1, room, text =>
    match room, text with
    | 0, '[' :: _ => none
    | 0, '{' :: _ => none
    | room + 1, '[' :: rest =>
      (readItems bound room rest).map fun (items, rest) => (.array items, rest)
    | room + 1, '{' :: rest =>
      match rest.dropWhile isSpace with
      | '}' :: rest => some (.table .inline [], rest)
      | _ =>
        (readEntries bound room [] rest).map fun (entries, rest) => (.table .inline entries, rest)
    | _, text => readScalar text

/-- The items of an array up to its closing bracket; a comma may follow the last one. -/
def readItems : (bound room : Nat) → List Char → Option (List Value × List Char)
  | 0, _, _ => none
  | bound + 1, room, text =>
    match dropTrivia false text with
    | ']' :: rest => some ([], rest)
    | text => do
      let (item, rest) ← readValue bound room text
      match dropTrivia false rest with
      | ',' :: rest =>
        let (items, rest) ← readItems bound room rest
        return (item :: items, rest)
      | ']' :: rest => return ([item], rest)
      | _ => none

/-- The entries of an inline table up to its closing brace, after those already read. -/
def readEntries : (bound room : Nat) → Entries → List Char → Option (Entries × List Char)
  | 0, _, _, _ => none
  | bound + 1, room, entries, text => do
    let (key, rest) ← readKey text
    match rest with
    | '=' :: rest =>
      let (value, rest) ← readValue bound room (rest.dropWhile isSpace)
      let entries ← insertAtKey .inline key.path key.name value entries
      match rest.dropWhile isSpace with
      | ',' :: rest => readEntries bound room entries rest
      | '}' :: rest => return (entries, rest)
      | _ => none
    | _ => none

end

/-! ## Lines -/

/-- What follows the end of a line, before which only spaces and a comment may stand. -/
def afterLine? (text : List Char) : Option (List Char) :=
  let text := match text.dropWhile isSpace with
    | '#' :: rest => rest.dropWhile isCommentChar
    | rest => rest
  if text.isEmpty then some [] else afterLineBreak? text

/-- The document read so far. -/
structure Draft where
  root : Entries
  /-- The path of the header that the next keys belong to. -/
  header : List String

/-- Reads a header after its opening bracket or brackets. -/
def readHeader (start : List String → String → Entries → Option Entries) (close : List Char)
    (draft : Draft) (text : List Char) : Option (Draft × List Char) := do
  let (key, rest) ← readKey text
  if close.isPrefixOf rest then
    let root ← start key.path key.name draft.root
    return (⟨root, key.path ++ [key.name]⟩, ← afterLine? (rest.drop close.length))
  else none

/-- Reads one line that is neither blank nor only a comment. -/
def readLine (draft : Draft) (text : List Char) : Option (Draft × List Char) :=
  match text with
  | '[' :: '[' :: rest => readHeader startElement [']', ']'] draft rest
  | '[' :: rest => readHeader startTable [']'] draft rest
  | _ => do
    let (key, rest) ← readKey text
    match rest with
    | '=' :: rest =>
      let (value, rest) ← readValue (2 * rest.length + 2) deepest (rest.dropWhile isSpace)
      let root ← insertUnderHeader draft.header key.path key.name value draft.root
      return ({ draft with root }, ← afterLine? rest)
    | _ => none

/-- Reads lines to the end of the text; the bound is the length of the text. -/
def readLines : (bound : Nat) → Draft → List Char → Option Entries
  | 0, _, _ => none
  | bound + 1, draft, text =>
    match text.dropWhile isSpace with
    | [] => some draft.root
    | text =>
      match afterLine? text with
      | some rest => readLines bound draft rest
      | none => do
        let (draft, rest) ← readLine draft text
        readLines bound draft rest

/-- The root table of a document, which may begin with a byte-order mark. -/
def document? (text : String) : Option Entries :=
  let lines := match text.toList with
    | '\ufeff' :: lines => lines
    | lines => lines
  readLines (lines.length + 1) ⟨[], []⟩ lines

end MoveMachine.Toml
