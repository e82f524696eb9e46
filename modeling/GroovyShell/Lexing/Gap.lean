/-
  GroovyShell/Lexing/Gap.lean
  ===========================
  **What stands between two tokens.**

  White space, `//` comments, block comments and, at the very beginning of a
  text, a `#!` line separate tokens without being tokens.  The gap before a
  token is measured in one pass, by a small machine that knows whether it is
  between comments or inside one.
-/
import GroovyShell.Text.Basic

namespace GroovyShell

/-- Where the measuring of a gap stands. -/
inductive GapState where
  /-- At the beginning of the text, where a `#!` line is skipped too. -/
  | opening
  /-- Between comments. -/
  | between
  /-- Inside a comment that ends with its line. -/
  | line
  /-- Inside a block comment that began after so many characters. -/
  | block (start : Nat)
deriving DecidableEq, Repr

/-- A measured gap: its length, or where the block comment begins that never
    ends. -/
inductive Gap where
  | closed (length : Nat)
  | openComment (start : Nat)
deriving DecidableEq, Repr

/-- Measure the rest of a gap of which `read` characters have been read. -/
def gapFrom : GapState → Nat → Text → Gap
  | .block start, _, [] => .openComment start
  | _, read, [] => .closed read
  | .block start, read, c :: t =>
    match c, t with
    | '*', '/' :: t => gapFrom .between (read + 2) t
    | _, t => gapFrom (.block start) (read + 1) t
  | .line, read, c :: t =>
    if c = '\n' then gapFrom .between (read + 1) t else gapFrom .line (read + 1) t
  | .opening, read, c :: t =>
    match c, t with
    | '#', '!' :: t => gapFrom .line (read + 2) t
    | '/', '/' :: t => gapFrom .line (read + 2) t
    | '/', '*' :: t => gapFrom (.block read) (read + 2) t
    | c, t => if isBlank c then gapFrom .between (read + 1) t else .closed read
  | .between, read, c :: t =>
    match c, t with
    | '/', '/' :: t => gapFrom .line (read + 2) t
    | '/', '*' :: t => gapFrom (.block read) (read + 2) t
    | c, t => if isBlank c then gapFrom .between (read + 1) t else .closed read

/-- The gap at the beginning of `t`; `first` says whether `t` is the beginning
    of the whole text. -/
def gap (first : Bool) (t : Text) : Gap :=
  gapFrom (if first then .opening else .between) 0 t

end GroovyShell
