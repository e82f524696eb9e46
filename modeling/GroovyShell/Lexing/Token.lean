/-
  GroovyShell/Lexing/Token.lean
  =============================
  **The words and marks a Groovy text is made of.**

  A token keeps its exact text and the place where it begins, so that a text can
  be put together again from its tokens, and so that what is typed can be
  replaced at the right column.  The three brackets share one type: what
  matters about them nearly everywhere is only whether they open or close.
-/
import GroovyShell.Lexing.Keyword

namespace GroovyShell

inductive Bracket where
  | paren
  | brace
  | square
deriving DecidableEq, Repr

/-- The ways to reach a member: `.`, `?.` and `*.`. -/
inductive Access where
  | plain
  | safe
  | spread
deriving DecidableEq, Repr

/-- What a token is.  An interpolated string is cut at its `${` and `}` into a
    start, any number of middles and an end, with the tokens of the code in
    between. -/
inductive TokenKind where
  | name
  | keyword (word : Keyword)
  | dot (access : Access)
  | number
  | string
  | stringStart
  | stringMiddle
  | stringEnd
  | opening (bracket : Bracket)
  | closing (bracket : Bracket)
  | comma
  | colon
  | semicolon
  | operator
  | endOfInput
deriving DecidableEq, Repr

def TokenKind.isDot : TokenKind → Bool
  | .dot _ => true
  | _ => false

def TokenKind.opens : TokenKind → Bool
  | .opening _ => true
  | _ => false

def TokenKind.closes : TokenKind → Bool
  | .closing _ => true
  | _ => false

/-- A token with its text and the place where it begins. -/
structure Token where
  kind : TokenKind
  text : Text
  position : Position
deriving DecidableEq, Repr

def Token.isOperator (t : Token) (spelling : String) : Bool :=
  t.kind == .operator && t.text == spelling.toList

/-- Name of a kind of token in a listing of tokens. -/
def TokenKind.label : TokenKind → String
  | .name => "Ident"
  | .keyword word => "Keyword(" ++ word.spelling.capitalize ++ ")"
  | .dot .plain => "Dot"
  | .dot .safe => "SafeDot"
  | .dot .spread => "SpreadDot"
  | .number => "Number"
  | .string => "StringLiteral"
  | .stringStart => "StringCtorStart"
  | .stringMiddle => "StringCtorMiddle"
  | .stringEnd => "StringCtorEnd"
  | .opening .paren => "LParen"
  | .opening .brace => "LBrace"
  | .opening .square => "LBracket"
  | .closing .paren => "RParen"
  | .closing .brace => "RBrace"
  | .closing .square => "RBracket"
  | .comma => "Comma"
  | .colon => "Colon"
  | .semicolon => "Semicolon"
  | .operator => "Operator"
  | .endOfInput => "Eof"

def Token.listing (t : Token) : String :=
  t.kind.label ++ " '" ++ t.text.string ++ "' @" ++ toString t.position.line ++ ":" ++
    toString t.position.column

end GroovyShell
