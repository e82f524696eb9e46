/-
  GroovyShell/Completion/Cursor.lean
  ==================================
  **Where in a program the cursor is.**

  The lines typed so far, cut at the cursor, are read to their end, and how that
  ends says where the cursor is.  A failure is not always a dead end: when the
  last line holds the opening quote of a string that never ends, the cursor is
  inside that string.
-/
import GroovyShell.Lexing.Lexer
import GroovyShell.Completion.Stream

namespace GroovyShell

/-- Why the text up to the cursor gives nothing to complete. -/
inductive CursorFailure where
  /-- The cursor is on a line without tokens, below lines with tokens. -/
  | trailingBlankLine
  /-- There are only white space and comments. -/
  | noTokens
  /-- The text cannot be read, for another reason than an open string on the
      current line. -/
  | lexer (error : LexError)
deriving DecidableEq, Repr

def CursorFailure.message : CursorFailure → String
  | .trailingBlankLine => "trailing blank line"
  | .noTokens => "no tokens"
  | .lexer e => e.message

inductive CursorPlace where
  /-- After these tokens. -/
  | after (stream : TokenStream)
  /-- In a string whose opening quote has this column in the current line,
      counted from zero. -/
  | inString (column : Nat)
  | unusable (reason : CursorFailure)
deriving DecidableEq, Repr

/-- The place when the text ends at a line, `seen` being its tokens, nearest
    first. -/
def placeAtEnd (line : Nat) (seen : List Token) : CursorPlace :=
  match seen with
  | [] => .unusable .noTokens
  | last :: earlier =>
    if line > last.position.line then .unusable .trailingBlankLine
    else .after ⟨last, earlier⟩

/-- The column, counted from zero, of the quote a failure points at, if that is
    a quote in the current line, which is preceded by `prior` lines. -/
def LexError.quoteColumn (e : LexError) (current : Text) (prior : Nat) : Option Nat :=
  match e.position with
  | some ⟨row, column + 1⟩ =>
    if (current[column]? = some '\'' ∨ current[column]? = some '"') ∧ row = prior + 1 then some column
    else none
  | _ => none

/-- The place when the text cannot be read on, `opened` interpolated strings
    being open. -/
def placeAtFailure (e : LexError) (opened : Int) (line : Text) (prior : Nat) : CursorPlace :=
  if opened > 0 then .unusable (.lexer e)
  else
    match e.quoteColumn line prior with
    | some column => .inString column
    | none => .unusable (.lexer e)

/-- How a token changes the number of open interpolated strings. -/
def Token.stringChange (t : Token) : Int :=
  match t.kind with
  | .stringStart => 1
  | .stringEnd => -1
  | _ => 0

/-- The place after further readings, `seen` being the tokens before them,
    nearest first.  When the readings run out, the text ends at its first line. -/
def placeFrom (line : Text) (prior : Nat) (opened : Int) (seen : List Token) :
    List (Except LexError Token) → CursorPlace
  | [] => placeAtEnd 1 seen
  | .error e :: _ => placeAtFailure e opened line prior
  | .ok t :: rest =>
    if t.kind = .endOfInput then placeAtEnd t.position.line seen
    else placeFrom line prior (opened + t.stringChange) (t :: seen) rest

/-- The place a source of tokens leads to, `line` being the last line it reads
    and `prior` the number of lines before that. -/
def placeOfReadings (readings : List (Except LexError Token)) (line : Text) (prior : Nat) :
    CursorPlace :=
  placeFrom line prior 0 [] readings

def Lexer.Scan.readings (scan : Lexer.Scan) : List (Except LexError Token) :=
  scan.tokens.map .ok ++ [scan.ending]

/-- Where the cursor is at the end of `line`, which follows the lines `prior`. -/
def cursorPlace (prior : List Text) (line : Text) : CursorPlace :=
  placeOfReadings (lexAll (Text.below prior line)).readings line prior.length

end GroovyShell
