/-
  GroovyShell/Config/Value.lean
  =============================
  **The values of a TOML document and how its tables grow.**

  A TOML document builds one table by headers and dotted keys, and forbids that
  two of them build the same part.  What may still be added to a table depends
  on what made it, so every table remembers that.
-/
import GroovyShell.Text.Basic

namespace GroovyShell

/-- What made a table. -/
inductive TableOrigin where
  /-- Its own header; the document itself counts as such. -/
  | header
  /-- The header of a table inside it. -/
  | headerPath
  /-- A dotted key. -/
  | dottedKey
  /-- Braces, which leave nothing to add. -/
  | braces
deriving DecidableEq, Repr

/-- A value.  Of a number with a fraction only its size matters, of a date
    nothing does, for no setting is either. -/
inductive TomlValue where
  | string (content : Text)
  | integer (n : Int)
  | float (tooLarge : Bool)
  | boolean (b : Bool)
  | datetime
  | array (items : List TomlValue)
  /-- Tables collected by double-bracketed headers, the last one first. -/
  | tables (newest : List (Text × TomlValue)) (older : List TomlValue)
  | table (origin : TableOrigin) (entries : List (Text × TomlValue))

abbrev TomlEntries := List (Text × TomlValue)

def replaceEntry (key : Text) (value : TomlValue) (entries : TomlEntries) : TomlEntries :=
  entries.map fun e => if e.1 = key then (key, value) else e

/-- Change the table that some keys lead to, tables missing on the way being
    made.  `byDots` says whether a dotted key or a header leads there: a dotted
    key may not enter a table with a header of its own. -/
def changeTable (byDots : Bool) (change : TableOrigin → TomlEntries → Option TomlEntries) :
    List Text → TableOrigin → TomlEntries → Option TomlEntries
  | [], origin, entries => change origin entries
  | key :: path, _, entries =>
    match entries.lookup key with
    | none =>
      let origin := if byDots then .dottedKey else .headerPath
      (changeTable byDots change path origin []).map fun inner =>
        entries ++ [(key, .table origin inner)]
    | some (.table .braces _) => none
    | some (.table origin inner) =>
      if byDots ∧ origin = .header then none
      else
        (changeTable byDots change path origin inner).map fun inner =>
          replaceEntry key (.table origin inner) entries
    | some (.tables newest older) =>
      (changeTable byDots change path .header newest).map fun newest =>
        replaceEntry key (.tables newest older) entries
    | some _ => none

/-- Give a key a value in the table that `path`, the dotted part before the key,
    leads to.  A table reached by dots must have been made by dots. -/
def addValue (path : List Text) (key : Text) (value : TomlValue) (origin : TableOrigin)
    (entries : TomlEntries) : Option TomlEntries :=
  changeTable true
    (fun origin entries =>
      if ¬ path.isEmpty ∧ origin ≠ .dottedKey then none
      else if (entries.lookup key).isSome then none
      else some (entries ++ [(key, value)]))
    path origin entries

/-- Open a table by its header. -/
def addTable (path : List Text) (key : Text) (entries : TomlEntries) : Option TomlEntries :=
  changeTable false
    (fun _ entries =>
      match entries.lookup key with
      | none => some (entries ++ [(key, .table .header [])])
      | some (.table .headerPath inner) => some (replaceEntry key (.table .header inner) entries)
      | some _ => none)
    path .header entries

/-- Open a further table of an array of tables by its header. -/
def addToTables (path : List Text) (key : Text) (entries : TomlEntries) : Option TomlEntries :=
  changeTable false
    (fun _ entries =>
      match entries.lookup key with
      | none => some (entries ++ [(key, .tables [] [])])
      | some (.tables newest older) =>
        some (replaceEntry key (.tables [] (.table .header newest :: older)) entries)
      | some _ => none)
    path .header entries

/-- Change the table that the header last read has opened. -/
def changeOpen (change : TomlEntries → Option TomlEntries) (header : List Text)
    (entries : TomlEntries) : Option TomlEntries :=
  changeTable false (fun _ entries => change entries) header .header entries

/-- The items of an array, however it was built. -/
def TomlValue.items : TomlValue → Option (List TomlValue)
  | .array items => some items
  | .tables newest older => some ((.table .header newest :: older).reverse)
  | _ => none

end GroovyShell
