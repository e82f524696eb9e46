/-
  GroovyShell/Config/Reader.lean
  ==============================
  **Reading a TOML document.**

  A document is read line by line into one table.  Only whether it can be read
  and what it holds matter; where it is at fault does not.
-/
import GroovyShell.Config.Scalar

namespace GroovyShell

/-! ### Keys -/

/-- Whether a character can stand in a key without quotes. -/
def isKeyChar (c : Char) : Bool := c.isAlphanum || c == '_' || c == '-'

/-- The simple key at the head of a text, and the text behind it. -/
def readSimpleKey : Text → Option (Text × Text)
  | [] => none
  | c :: t =>
    if c = '"' ∨ c = '\'' then lineString c (t.length + 1) [] t
    else
      let length := Text.run isKeyChar (c :: t)
      if length = 0 then none else some ((c :: t).take length, (c :: t).drop length)

/-- The parts of the dotted key at the head of a text, the last one apart from
    those before it, and the text behind the key and any white space. -/
def readKeyParts : Nat → Text → Option (List Text × Text × Text)
  | 0, _ => none
  | fuel + 1, t => do
    let (key, t) ← readSimpleKey (t.dropWhile isSpace)
    let t := t.dropWhile isSpace
    match t with
    | '.' :: t =>
      let (path, last, t) ← readKeyParts fuel t
      some (key :: path, last, t)
    | t => some ([], key, t)

def keyLimit : Nat := 80

/-- The dotted key at the head of a text, if it has no more parts than it may: the
    parts before its last one, that last one, and the text behind the key and any
    white space. -/
def readKey (t : Text) : Option (List Text × Text × Text) :=
  (readKeyParts (t.length + 1) t).filter fun (path, _, _) => path.length < keyLimit

/-! ### Values -/

def nestingLimit : Nat := 80

/-- Reads a value at the head of a text, and gives the text behind it. -/
abbrev ValueReader := Text → Option (TomlValue × Text)

/-- The text behind a comment at the head of a text, if a comment stands there. -/
def dropComment : Text → Option Text
  | '#' :: t =>
    let comment := t.takeWhile fun c => c != '\n'
    let comment := if comment.getLast? = some '\r' then comment.dropLast else comment
    if comment.any isForbidden then none else some (t.drop comment.length)
  | t => some t

/-- The text behind white space, comments and line breaks. -/
def dropLines : Nat → Text → Option Text
  | 0, t => some t
  | fuel + 1, t => do
    let t ← dropComment (t.dropWhile isSpace)
    match dropLineBreak t with
    | some t => dropLines fuel t
    | none => some t

/-- The items of an array whose opening bracket has been read, the last of the
    items in `read` first, and the text behind the array. -/
def readItems (readValue : ValueReader) : Nat → List TomlValue → Text →
    Option (List TomlValue × Text)
  | 0, _, _ => none
  | fuel + 1, read, t => do
    let t ← dropLines t.length t
    match t with
    | ']' :: t => some (read.reverse, t)
    | t =>
      let (value, t) ← readValue t
      let t ← dropLines t.length t
      match t with
      | ',' :: t => readItems readValue fuel (value :: read) t
      | ']' :: t => some ((value :: read).reverse, t)
      | _ => none

/-- A key, an equals sign and a value at the head of a text: the dotted part of
    the key, its last part, the value, and the text behind it. -/
def readPair (readValue : ValueReader) (t : Text) :
    Option (List Text × Text × TomlValue × Text) := do
  let (path, key, t) ← readKey t
  let t ← dropChar '=' t
  let (value, t) ← readValue (t.dropWhile isSpace)
  some (path, key, value, t)

/-- The entries of a table in braces whose opening brace has been read, added to
    the entries already read, and the text behind the table. -/
def readEntries (readValue : ValueReader) : Nat → TomlEntries → Text →
    Option (TomlEntries × Text)
  | 0, _, _ => none
  | fuel + 1, read, t => do
    let t ← dropLines t.length t
    match t with
    | '\x7d' :: t => some (read, t)
    | t =>
      let (path, key, value, t) ← readPair readValue t
      let read ← addValue path key value .header read
      let t ← dropLines t.length t
      match t with
      | ',' :: t => readEntries readValue fuel read t
      | '\x7d' :: t => some (read, t)
      | _ => none

def readScalar : ValueReader
  | [] => none
  | c :: t =>
    if c = '"' ∨ c = '\'' then
      (readString (c :: t)).map fun (content, t) => (.string content, t)
    else
      let length := wordLength (c :: t)
      (readWord ((c :: t).take length)).map fun value => (value, (c :: t).drop length)

/-- The value at the head of a text, with values nested in it no more than so many
    levels deep. -/
def readValue : Nat → ValueReader
  | 0, t => readScalar t
  | depth + 1, t =>
    match t with
    | '[' :: t =>
      (readItems (readValue depth) (t.length + 1) [] t).map fun (items, t) => (.array items, t)
    | '\x7b' :: t =>
      (readEntries (readValue depth) (t.length + 1) [] t).map fun (entries, t) =>
        (.table .braces entries, t)
    | t => readScalar t

/-! ### Documents -/

/-- The text behind the end of a line, which may hold a comment. -/
def endLine (t : Text) : Option Text := do
  let t ← dropComment (t.dropWhile isSpace)
  match t with
  | [] => some []
  | t => dropLineBreak t

/-- What has been read of a document: its entries, and the keys of the header
    that entries now go under. -/
structure Draft where
  header : List Text
  entries : TomlEntries

/-- Read a header whose opening bracket has been read. -/
def readHeader (draft : Draft) (t : Text) : Option (Draft × Text) := do
  let double := t.beginsWith ['[']
  let (path, key, t) ← readKey (if double then t.drop 1 else t)
  let t ← dropChar ']' t
  let t ← if double then dropChar ']' t else some t
  let entries ←
    if double then addToTables path key draft.entries else addTable path key draft.entries
  some (⟨path ++ [key], entries⟩, t)

def readLine (draft : Draft) (t : Text) : Option (Draft × Text) :=
  match t with
  | '[' :: t => readHeader draft t
  | t => do
    let (path, key, value, t) ← readPair (readValue nestingLimit) t
    let entries ← changeOpen (addValue path key value .header) draft.header draft.entries
    some (⟨draft.header, entries⟩, t)

def readLines : Nat → Draft → Text → Option TomlEntries
  | 0, _, _ => none
  | fuel + 1, draft, t => do
    let t ← dropLines t.length t
    if t.isEmpty then some draft.entries
    else
      let (draft, t) ← readLine draft t
      readLines fuel draft (← endLine t)

/-- Read a document.  A byte order mark before it is skipped. -/
def readDocument (t : Text) : Option TomlEntries :=
  let t := (t.dropHead? ['\uFEFF']).getD t
  readLines (t.length + 1) ⟨[], []⟩ t

end GroovyShell
