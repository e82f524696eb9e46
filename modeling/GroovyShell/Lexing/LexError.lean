/-
  GroovyShell/Lexing/LexError.lean
  ================================
  **Why a text cannot be cut into tokens.**

  An unfinished bracket is no error: the text may go on.  What is reported here
  is a string or comment that never ends, or a character no token begins with.
  A token source other than the lexer may also fail in a way of its own.
-/
import GroovyShell.Lexing.Token

namespace GroovyShell

/-- The ways in which reading a token fails. -/
inductive LexFault where
  /-- A string reached the end of its line or of the input. -/
  | unterminatedString
  /-- A block comment reached the end of the input. -/
  | unterminatedComment
  /-- No token begins with this character. -/
  | unexpectedChar (c : Char)
  /-- A token source failed in its own way. -/
  | internal (message : String)
deriving DecidableEq, Repr

/-- A failure, with the place where the token at fault begins if it is known. -/
structure LexError where
  fault : LexFault
  position : Option Position
deriving DecidableEq, Repr

def LexError.at (fault : LexFault) (p : Position) : LexError := ⟨fault, some p⟩

def LexFault.message : LexFault → String
  | .unterminatedString => "unterminated string literal"
  | .unterminatedComment => "unterminated block comment"
  | .unexpectedChar c => "unexpected character '" ++ c.toString ++ "'"
  | .internal message => "lexer failure: " ++ message

def LexError.message (e : LexError) : String :=
  match e.position with
  | some p => e.fault.message ++ " at " ++ toString p.line ++ ":" ++ toString p.column
  | none => e.fault.message

end GroovyShell
