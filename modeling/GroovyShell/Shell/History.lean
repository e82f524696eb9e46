/-
  GroovyShell/Shell/History.lean
  ==============================
  **Past inputs.**

  The history keeps the newest inputs up to its capacity.  Empty lines are not
  kept, nor a line that repeats the newest one.
-/
import GroovyShell.Error
import GroovyShell.Files.Disk

namespace GroovyShell

/-- Past inputs, the newest first. -/
structure History where
  capacity : Nat
  entries : List Text
deriving DecidableEq, Repr

namespace History

/-- The capacity that is one too large to be addressed. -/
def capacityLimit : Nat := 18446744073709551615

def new (capacity : Nat) : Except ShellError History :=
  if capacity = capacityLimit then
    .error (.editor
      "error in Reedline history: History capacity too large to be addressed safely")
  else .ok ⟨capacity, []⟩

def keeps (h : History) (line : Text) : Bool :=
  !line.isEmpty && h.entries.head? != some line && 0 < h.capacity

/-- Add a line.  When the history is full the oldest line makes room. -/
def save (h : History) (line : Text) : History :=
  if h.keeps line then { h with entries := (line :: h.entries).take h.capacity } else h

/-- The newest line that begins with `head`. -/
def newestWith (h : History) (head : Text) : Option Text :=
  h.entries.find? fun line => line.beginsWith head

/-- Prepare the file a history is kept in: its directory is made, and the file
    itself if it is missing. -/
def openFile (capacity : Nat) (path : Text) (d : Disk) : Except ShellError Disk :=
  match new capacity with
  | .error e => .error e
  | .ok _ =>
    match (d.makeParents path).bind fun d => d.openLines path with
    | .ok d => .ok d
    | .error e => .error (.editor ("I/O error: " ++ e.message))

end History

end GroovyShell
