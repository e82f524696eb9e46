/-
  GroovyShell/Completion/Offer.lean
  =================================
  **What a completer offers.**

  A completer is asked about the tokens up to the cursor and answers with the
  candidates it adds to those already collected.  It is told how many those are
  and may leave a note of what it was asked; neither has any effect on the
  others.  Completers of names say whether they found anything; completers of
  members and file names say from which column on the candidates replace what
  is typed.
-/
import GroovyShell.Completion.Stream
import GroovyShell.Session.NameMap

namespace GroovyShell

structure NameOffer where
  candidates : List Text
  matched : Bool
  notes : List String
deriving DecidableEq, Repr

/-- What a completer that knows the place of its candidates adds.  Without a
    place there is nothing to complete. -/
structure PlacedOffer where
  candidates : List Text
  place : Option Nat
  notes : List String
deriving DecidableEq, Repr

def PlacedOffer.none : PlacedOffer := ⟨[], .none, []⟩

/-- Completes a bare name, given how many candidates there are already. -/
abbrev NameCompleter := TokenStream → Nat → NameOffer

abbrev MemberCompleter := TokenStream → Nat → PlacedOffer

/-- Completes a file name in a text with a cursor; the place counts in that text. -/
abbrev FilenameCompleter := Text → Nat → Nat → PlacedOffer

/-- The names that begin with what is typed, in order and each once. -/
def matching (typed : Text) (names : List Text) : List Text :=
  (NameSet.ofList (names.filter fun name => name.beginsWith typed)).names

theorem mem_matching {typed name : Text} {names : List Text} :
    name ∈ matching typed names ↔ name ∈ names ∧ name.beginsWith typed = true := by
  rw [matching, NameSet.mem_ofList, List.mem_filter]

theorem matching_rising (typed : Text) (names : List Text) :
    (matching typed names).Pairwise (· < ·) :=
  NameMap.names_rising _

def completeFrom (names : List Text) : NameCompleter := fun stream _ =>
  let found := matching stream.word names
  ⟨found, !found.isEmpty, []⟩

/-- Asks several completers one after another, all of them even when one has
    found something. -/
def completeFromAll : List NameCompleter → NameCompleter
  | [], _, _ => ⟨[], false, []⟩
  | c :: rest, stream, present =>
    let first := c stream present
    let others := completeFromAll rest stream (present + first.candidates.length)
    ⟨first.candidates ++ others.candidates, first.matched || others.matched,
      first.notes ++ others.notes⟩

end GroovyShell
