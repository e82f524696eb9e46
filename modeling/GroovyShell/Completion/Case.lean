/-
  GroovyShell/Completion/Case.lean
  ================================
  **What kind of completion is called for.**

  There is no parse tree; the last two tokens decide.  A name after another
  name is never completed, even where a command call would make it an argument.
-/
import GroovyShell.Completion.Stream

namespace GroovyShell

/-- What the tokens up to the cursor call for. -/
inductive CompletionCase where
  /-- Nothing sensible can be offered. -/
  | nothing
  /-- A member, the dot being typed last. -/
  | afterDot
  /-- A member whose beginning has been typed. -/
  | memberWord
  /-- A name whose beginning has been typed. -/
  | word
deriving DecidableEq, Repr

/-- The case for a name typed after `previous`, with so many tokens before it. -/
def CompletionCase.ofWord (previous : Option Token) (before : Nat) : CompletionCase :=
  match previous with
  | none => .word
  | some previous =>
    match previous.kind with
    | .dot _ => if before < 2 then .nothing else .memberWord
    | .keyword k => if k.suppressesCompletion then .nothing else .word
    | .name => .nothing
    | _ => .word

def TokenStream.case (s : TokenStream) : CompletionCase :=
  match s.last.kind with
  | .name => .ofWord s.previous s.earlier.length
  | .dot _ => if s.earlier.isEmpty then .nothing else .afterDot
  | _ => .nothing

end GroovyShell
