/-
  GroovyShell/Shell/Prompt.lean
  =============================
  **What stands before the line being typed.**

  The prompt counts the lines of the statement that have been typed already.
-/
import GroovyShell.Shell.Hinter

namespace GroovyShell

def threeDigits (n : Nat) : String :=
  String.ofList (List.replicate (3 - (toString n).length) '0') ++ toString n

/-- The prompt when so many lines of a statement have been typed. -/
def promptText (color : Bool) (lines : Nat) : String :=
  let count := threeDigits lines
  if color then styled "1;32" "groovy" ++ ":" ++ styled "90" count ++ "> "
  else "groovy:" ++ count ++ "> "

def rightPrompt : String := ""

def modeIndicator : String := ""

def continuationPrompt : String := "... "

def searchPrompt (failing : Bool) (term : Text) : String :=
  "(" ++ (if failing then "failing " else "") ++ "reverse-search: " ++ term.string ++ ") "

end GroovyShell
