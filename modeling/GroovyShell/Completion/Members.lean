/-
  GroovyShell/Completion/Members.lean
  ===================================
  **Members after a dot.**

  Which members can follow a dot depends on the type of the expression before
  it.  The type is known when that expression is a literal, or a single name the
  session knows; of anything more complicated nothing is known.
-/
import GroovyShell.Completion.Catalog
import GroovyShell.Completion.Offer
import GroovyShell.Lexing.Literal
import GroovyShell.Session.State

namespace GroovyShell

/-- Whether a bracketed literal is a map: whether a colon stands directly inside
    its outermost brackets. -/
def hasEntries (depth : Nat) : List Token → Bool
  | [] => false
  | t :: rest => (t.kind = .colon && depth = 1) || hasEntries (depthAfter depth t) rest

/-- The type of a single token, as far as the session knows it.  A capitalized
    name the session does not know is taken for a class. -/
def typeOfToken (s : Session) (t : Token) : Option Text :=
  match t.kind with
  | .string => some "String".toList
  | .number => some (numberType t.text).toList
  | .name =>
    if s.hasVariable t.text then some ((s.variableType t.text).getD "Object".toList)
    else if t.text.head?.any isCapital then some "Class".toList
    else none
  | _ => none

/-- The type of several tokens, from the first and last of them. -/
def typeOfTokens (first last : TokenKind) (tokens : List Token) : Option Text :=
  match first, last with
  | .stringStart, .stringEnd => some "GString".toList
  | .opening .square, .closing .square =>
    some (if hasEntries 0 tokens then "Map".toList else "List".toList)
  | _, _ => none

def receiverType (s : Session) : List Token → Option Text
  | [] => none
  | [t] => typeOfToken s t
  | first :: second :: rest =>
    typeOfTokens first.kind ((second :: rest).getLast (by simp)).kind (first :: second :: rest)

/-- The column, counted from zero, at which a token begins. -/
def Token.start (t : Token) : Nat := t.position.column - 1

/-- The column, counted from zero, from which members are inserted: after the
    dot, or where the word after the dot begins. -/
def TokenStream.memberColumn (s : TokenStream) : Nat :=
  if s.last.kind.isDot then s.last.start + s.last.text.length else s.last.start

/-- What is typed of the member: nothing when the dot is last. -/
def TokenStream.memberWord (s : TokenStream) : Text :=
  if s.last.kind.isDot then [] else s.last.text

def completeMembers (s : Session) : MemberCompleter := fun stream _ =>
  match receiverType s stream.receiver with
  | none => .none
  | some type =>
    let found := matching stream.memberWord (membersOf type)
    if found.isEmpty then .none else ⟨found, some stream.memberColumn, []⟩

end GroovyShell
