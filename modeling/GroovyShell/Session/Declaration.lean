/-
  GroovyShell/Session/Declaration.lean
  ====================================
  **What a finished statement declares.**

  The shell evaluates nothing, yet completion wants to know which names a
  session has introduced.  A statement is therefore read for its top-level
  imports, variables, methods and types.  Whether a declaration starts at a
  token is decided by that token and what follows; the walk over the statement
  only finds the places where one may start.
-/
import GroovyShell.Lexing.Lexer
import GroovyShell.Lexing.Literal

namespace GroovyShell

inductive Declaration where
  /-- An import clause, such as `java.time.LocalDate as LD`. -/
  | importing (clause : Text)
  /-- A variable with its declared or evident type. -/
  | binding (name : Text) (type : Option Text)
  | method (name : Text)
  /-- A class, interface, enumeration or trait. -/
  | type (name : Text)
deriving DecidableEq, Repr

/-! ### Type references -/

/-- Continue a qualified name as far as dots and names follow it. -/
def qualifiedName (name : Text) : List Token → Text × List Token
  | dot :: part :: rest =>
    if dot.kind = .dot .plain ∧ part.kind = .name then
      qualifiedName (name ++ '.' :: part.text) rest
    else (name, dot :: part :: rest)
  | rest => (name, rest)

/-- How a token changes the number of open angle brackets. -/
def Token.angleChange (t : Token) : Int :=
  if t.text = ['<'] then 1
  else if t.text = ['>'] then -1
  else if t.text = ['>', '>'] then -2
  else if t.text = ['>', '>', '>'] then -3
  else 0

/-- The tokens after those that close `opened` angle brackets. -/
def closeAngles (opened : Int) : List Token → List Token
  | [] => []
  | t :: rest =>
    if opened + t.angleChange ≤ 0 then rest else closeAngles (opened + t.angleChange) rest

/-- The tokens after the generic arguments that stand first, if any do. -/
def dropTypeArguments : List Token → List Token
  | [] => []
  | t :: rest => if t.text = ['<'] then closeAngles 0 (t :: rest) else t :: rest

/-- Append the array brackets that stand first to a type. -/
def arrayType (type : Text) : List Token → Text × List Token
  | left :: right :: rest =>
    if left.kind = .opening .square ∧ right.kind = .closing .square then
      arrayType (type ++ ['[', ']']) rest
    else (type, left :: right :: rest)
  | rest => (type, rest)

/-- The type at the head of some tokens, with the tokens after it.  It is a
    possibly qualified name whose last part is capitalized, generic arguments,
    which are dropped, and array brackets, which are kept. -/
def typeReference : List Token → Option (Text × List Token)
  | [] => none
  | first :: rest =>
    let (name, rest) := qualifiedName first.text rest
    if (name.lastPart '.').head?.any isCapital then
      some (arrayType name (dropTypeArguments rest))
    else none

/-! ### Declarations -/

/-- What is assigned, if the tokens begin with `=`. -/
def assignedValue : List Token → Option (List Token)
  | t :: rest => if t.isOperator "=" then some rest else none
  | [] => none

/-- The type that is plain from the value at the head of some tokens: that of a
    literal, or of the object a constructor call makes. -/
def evidentType : List Token → Option Text
  | [] => none
  | first :: rest =>
    match first.kind with
    | .string | .stringStart => some "String".toList
    | .number => some (numberType first.text).toList
    | .keyword .kwTrue | .keyword .kwFalse => some "Boolean".toList
    | .opening .square =>
      if (rest.take 2).any (·.kind = .colon) then some "Map".toList else some "List".toList
    | .keyword .kwNew => (typeReference rest).map (·.1)
    | _ => none

/-- The method or variable whose name stands first, `declared` being its type
    if one was written. -/
def namedDeclaration (declared : Option Text) : List Token → Option Declaration
  | [] => none
  | name :: rest =>
    if name.kind = .name then
      if rest.head?.any (·.kind = .opening .paren) then some (.method name.text)
      else
        some (.binding name.text
          (declared.or ((assignedValue rest).bind evidentType)))
    else none

def Token.isImportPart (t : Token) : Bool :=
  t.kind = .name || t.kind = .dot .plain || t.isOperator "*"

/-- The name given to an import by `as`. -/
def importAlias : List Token → Option Text
  | word :: name :: _ =>
    if word.kind = .keyword .kwAs ∧ name.kind = .name then some name.text else none
  | _ => none

/-- The tokens after `static`, if that stands first. -/
def dropStatic : List Token → List Token
  | [] => []
  | t :: rest => if t.kind = .keyword .kwStatic then rest else t :: rest

/-- The import whose path stands first, possibly after `static`. -/
def importDeclaration (tokens : List Token) : Option Declaration :=
  let tokens := dropStatic tokens
  let parts := tokens.takeWhile Token.isImportPart
  let path : Text := (parts.map Token.text).flatten
  if path.isEmpty ∨ path.getLast? = some '.' then none
  else
    match importAlias (tokens.drop parts.length) with
    | some name => some (.importing (path ++ " as ".toList ++ name))
    | none => some (.importing path)

/-- The declaration at the head of some tokens, if a declaration stands there. -/
def declarationAt (tokens : List Token) : Option Declaration :=
  let tokens := tokens.dropWhile fun t : Token =>
    match t.kind with
    | .keyword word => word.isModifier
    | _ => false
  match tokens with
  | [] => none
  | first :: rest =>
    match first.kind with
    | .keyword .kwImport => importDeclaration rest
    | .keyword .kwDef => namedDeclaration none rest
    | .keyword word =>
      if word.declaresType then
        match rest with
        | name :: _ => if name.kind = .name then some (.type name.text) else none
        | [] => none
      else if word.isPrimitiveType then namedDeclaration (some word.spelling.toList) rest
      else none
    | .name =>
      match typeReference (first :: rest) with
      | some (type, after) =>
        if after.head?.any (·.kind = .name) then namedDeclaration (some type) after
        else (assignedValue rest).map fun value => .binding first.text (evidentType value)
      | none => (assignedValue rest).map fun value => .binding first.text (evidentType value)
    | _ => none

/-- Whether a statement may start at a token, given the one before it: at the
    beginning, after a semicolon or closing brace, and on a new line. -/
def startsStatement (before : Option Token) (t : Token) : Bool :=
  match before with
  | none => true
  | some before =>
    before.kind = .semicolon || before.kind = .closing .brace ||
      before.position.line < t.position.line

/-- Depth of nesting after a token.  A bracket too many closes nothing. -/
def depthAfter (depth : Nat) (t : Token) : Nat :=
  match t.kind with
  | .opening _ => depth + 1
  | .closing _ => depth - 1
  | _ => depth

/-- The declarations at the outermost level of some tokens, which stand at the
    given depth behind the given token. -/
def declarationsFrom (depth : Nat) (before : Option Token) : List Token → List Declaration
  | [] => []
  | t :: rest =>
    let depth := depthAfter depth t
    let here :=
      if depth = 0 ∧ startsStatement before t then (declarationAt (t :: rest)).toList else []
    here ++ declarationsFrom depth (some t) rest

/-- What a finished statement declares, in order.  A text that cannot be cut
    into tokens declares nothing. -/
def declarations (source : Text) : List Declaration :=
  match tokensOf source with
  | .ok tokens => declarationsFrom 0 none tokens
  | .error _ => []

end GroovyShell
