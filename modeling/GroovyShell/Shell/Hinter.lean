/-
  GroovyShell/Shell/Hinter.lean
  =============================
  **The rest of a past input, shown behind the line being typed.**

  The hint is what follows the typed line in the newest past input that begins
  with it.  It is shown at the end of a line only, and can be taken over whole
  or word by word.
-/
import GroovyShell.Shell.History

namespace GroovyShell

def styled (style : String) (t : String) : String :=
  "\x1b[" ++ style ++ "m" ++ t ++ "\x1b[0m"

/-- The rest of the newest past input that begins with a line, if there is a
    rest. -/
def restOfNewest (h : History) (line : Text) : Option Text :=
  ((h.newestWith line).map fun found => found.drop line.length).filter fun rest => !rest.isEmpty

/-- The hint for a line.  `atEnd` says whether the cursor is at its end. -/
def hintFor (h : History) (line : Text) (atEnd : Bool) : Text :=
  if atEnd ∧ ¬ line.isBlankOnly then (restOfNewest h line).getD [] else []

/-- A hint as it is shown.  Without a hint nothing is shown, not even a style. -/
def shownHint (color : Bool) (hint : Text) : String :=
  if color ∧ ¬ hint.isEmpty then styled "3;90" hint.string else hint.string

/-- The part of a hint that is taken over first: up to the end of its next word,
    or its next character when that is in no word. -/
def nextHintWord (hint : Text) : Text :=
  let leading := hint.run isBlank
  let word := Text.run continuesName (hint.drop leading)
  hint.take (leading + max word 1)

end GroovyShell
