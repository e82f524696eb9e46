/-
  GroovyShell/Completion/Engine.lean
  ==================================
  **From a line and a cursor to candidates.**

  The engine decides who is asked.  Command lines are left alone; a cursor in a
  string asks for file names; otherwise the last tokens decide between names,
  members and nothing.  Columns count the characters of the current line from
  zero.
-/
import GroovyShell.Completion.Case
import GroovyShell.Completion.Cursor
import GroovyShell.Completion.Offer
import GroovyShell.Session.Command

namespace GroovyShell

/-- Who is asked for what. -/
structure Engine where
  /-- Commands whose lines are never completed. -/
  commands : List CommandEntry
  names : List NameCompleter
  members : Option MemberCompleter
  filenames : Option FilenameCompleter

namespace Engine

/-- Whether the text up to the first space is a command. -/
def isCommandLine (e : Engine) (line : Text) : Bool :=
  match line.cut (· == ' ') with
  | some (word, _) => e.commands.any fun c => c.isNamedBy word
  | none => false

def completeWord (e : Engine) (stream : TokenStream) (present : Nat) : PlacedOffer :=
  let offer := completeFromAll e.names stream present
  ⟨offer.candidates, if offer.matched then some (stream.last.position.column - 1) else none,
    offer.notes⟩

def completeAfter (e : Engine) (stream : TokenStream) (present : Nat) : PlacedOffer :=
  match stream.case with
  | .nothing => .none
  | .word => e.completeWord stream present
  | .afterDot | .memberWord =>
    match e.members with
    | some members => members stream present
    | none => .none

/-- Complete in the string whose opening quote has the given column.  The
    completer sees the rest of the line and counts from there. -/
def completeInString (e : Engine) (line : Text) (quote cursor present : Nat) : PlacedOffer :=
  match e.filenames with
  | some filenames =>
    let start := quote + 1
    let offer := filenames (line.drop start) (cursor - start) present
    { offer with place := offer.place.map (start + ·) }
  | none => .none

/-- Complete a line that follows the lines `prior` at a cursor, given how many
    candidates there are already. -/
def complete (e : Engine) (prior : List Text) (line : Text) (cursor present : Nat) : PlacedOffer :=
  if line.isEmpty ∨ e.isCommandLine line then .none
  else
    match cursorPlace prior (line.take cursor) with
    | .after stream => e.completeAfter stream present
    | .inString column => e.completeInString line column (min cursor line.length) present
    | .unusable _ => .none

/-- Complete onto the candidates collected so far: the place, and the candidates
    with those that are added. -/
def completeOnto (e : Engine) (prior : List Text) (line : Text) (cursor : Nat)
    (collected : List Text) : Option Nat × List Text :=
  let offer := e.complete prior line cursor collected.length
  (offer.place, collected ++ offer.candidates)

end Engine

end GroovyShell
