/-
  GroovyShell/Completion/Suggestion.lean
  ======================================
  **Completion as the line editor sees it.**

  The line editor counts the bytes of a line in UTF-8, the engine counts its
  characters.  A cursor is translated on the way in and a place on the way out;
  what the editor gets is the text to insert and the bytes it replaces, which
  end at the cursor.
-/
import GroovyShell.Completion.Engine
import GroovyShell.Completion.Filenames
import GroovyShell.Completion.Members
import GroovyShell.Completion.Names
import GroovyShell.Config.Settings

namespace GroovyShell

/-! ### Bytes and characters -/

def Text.byteLength : Text → Nat
  | [] => 0
  | c :: t => c.utf8Size + byteLength t

/-- Number of characters of a text that begin before a byte. -/
def charactersBefore : Text → Nat → Nat
  | [], _ => 0
  | c :: t, byte => if byte = 0 then 0 else 1 + charactersBefore t (byte - c.utf8Size)

/-- The byte at which a character of a text begins, or the end of the text. -/
def byteOfCharacter (t : Text) (character : Nat) : Nat := Text.byteLength (t.take character)

@[simp] theorem Text.byteLength_append (a b : Text) :
    Text.byteLength (a ++ b) = Text.byteLength a + Text.byteLength b := by
  induction a with
  | nil => simp [Text.byteLength]
  | cons c t ih => simp only [List.cons_append, Text.byteLength, ih]; omega

/-- The byte at which a character begins has that many characters before it. -/
theorem charactersBefore_byteOfCharacter {t : Text} {character : Nat} (h : character ≤ t.length) :
    charactersBefore t (byteOfCharacter t character) = character := by
  induction t generalizing character with
  | nil => simp_all [charactersBefore]
  | cons c t ih =>
    cases character with
    | zero => simp [byteOfCharacter, Text.byteLength, charactersBefore]
    | succ n =>
      have positive := c.utf8Size_pos
      have before := @ih n (by simpa using h)
      simp only [byteOfCharacter, List.take_succ_cons, Text.byteLength, charactersBefore] at before ⊢
      rw [if_neg (by omega), Nat.add_sub_cancel_left, before, Nat.add_comm]

/-! ### Suggestions -/

/-- A text to insert in place of some bytes of the line. -/
structure Suggestion where
  value : Text
  start : Nat
  stop : Nat
  /-- Whether a space is inserted after it. -/
  spaced : Bool
deriving DecidableEq, Repr

/-- The sources of names that the settings allow, in the order they are asked. -/
def CompletionSettings.sources (c : CompletionSettings) : List NameSource :=
  (if c.keywords then [.language] else []) ++ (if c.bindings then [.bindings] else []) ++
    (if c.imports then [.imports] else []) ++ (if c.customClasses then [.classes] else [])

def engineFor (c : CompletionSettings) (s : Session) (d : Disk) : Engine where
  commands := builtinCommands
  names := c.sources.map (NameSource.completer s)
  members := if c.members then some (completeMembers s) else none
  filenames := if c.filenames then some (completeFilename d c.showHiddenFiles) else none

/-- What an engine suggests for a line that follows the lines `prior`, the
    cursor being at a byte. -/
def Engine.suggest (e : Engine) (prior : List Text) (line : Text) (byte : Nat) :
    List Suggestion :=
  let stop := min byte line.byteLength
  let offer := e.complete prior line (charactersBefore line stop) 0
  match offer.place with
  | some place =>
    let start := min (byteOfCharacter line place) stop
    offer.candidates.map fun value => ⟨value, start, stop, false⟩
  | none => []

/-- What is suggested in a session for the line being typed. -/
def suggestions (c : CompletionSettings) (s : Session) (d : Disk) (line : Text) (byte : Nat) :
    List Suggestion :=
  (engineFor c s d).suggest s.buffer line byte

end GroovyShell
