/-
  GroovyShell/Statement.lean
  ==========================
  **When a statement is finished.**

  The shell reads Groovy a line at a time and keeps the lines until the
  statement they form is finished.  It is unfinished while a block comment, a
  triple-quoted string or an interpolation is open, while brackets are open, or
  while it ends in something that needs a right-hand side.
-/
import GroovyShell.Lexing.Lexer

namespace GroovyShell

inductive Completeness where
  | complete
  | incomplete
deriving DecidableEq, Repr

/-- Whether another line can still repair a failure.  Only block comments and
    triple-quoted strings may span lines; any other failure is final. -/
def LexError.canContinue (source : Text) (e : LexError) : Bool :=
  match e.fault, e.position with
  | .unterminatedComment, _ => true
  | .unterminatedString, some p =>
    let rest := source.startingAt p
    rest.beginsWith ['\'', '\'', '\''] || rest.beginsWith ['"', '"', '"']
  | _, _ => false

def Token.bracketChange (t : Token) : Int :=
  match t.kind with
  | .opening _ => 1
  | .closing _ => -1
  | _ => 0

/-- Opened minus closed brackets of some tokens, whatever their kinds and order. -/
def bracketBalance : List Token → Int
  | [] => 0
  | t :: rest => t.bracketChange + bracketBalance rest

/-- Whether a statement that ends in this token needs a right-hand side. -/
def Token.isDangling (t : Token) : Bool :=
  match t.kind with
  | .dot _ | .comma => true
  | .operator => !(t.isOperator "++" || t.isOperator "--")
  | _ => false

/-- Whether a statement is finished.  A text that cannot be read, and that no
    further line can repair, counts as finished, so that the failure surfaces
    instead of the shell asking for more. -/
def completeness (source : Text) : Completeness :=
  if source.isBlankOnly then .complete
  else
    let scan := lexAll source
    match scan.ending with
    | .error e => if e.canContinue source then .incomplete else .complete
    | .ok _ =>
      if scan.lexer.nesting.length > 0 ∨ bracketBalance scan.tokens > 0 ∨
          scan.tokens.getLast?.any Token.isDangling then
        .incomplete
      else .complete

end GroovyShell
