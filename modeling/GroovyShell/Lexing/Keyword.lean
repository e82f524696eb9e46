/-
  GroovyShell/Lexing/Keyword.lean
  ===============================
  **The reserved words of Groovy.**

  A word of the language is never a name, so the lexer looks every name up here
  first.  Two groups of words matter beyond that: those after which nothing is
  worth completing, because a name is being declared there, and those that name
  a primitive type.
-/
import GroovyShell.Text.Basic

namespace GroovyShell

inductive Keyword where
  | kwAbstract
  | kwAs
  | kwAssert
  | kwBoolean
  | kwBreak
  | kwByte
  | kwCase
  | kwCatch
  | kwChar
  | kwClass
  | kwContinue
  | kwDef
  | kwDefault
  | kwDo
  | kwDouble
  | kwElse
  | kwEnum
  | kwExtends
  | kwFalse
  | kwFinal
  | kwFinally
  | kwFloat
  | kwFor
  | kwIf
  | kwImplements
  | kwImport
  | kwIn
  | kwInstanceof
  | kwInt
  | kwInterface
  | kwLong
  | kwNew
  | kwNull
  | kwPackage
  | kwPrivate
  | kwProtected
  | kwPublic
  | kwReturn
  | kwShort
  | kwStatic
  | kwSuper
  | kwSwitch
  | kwSynchronized
  | kwThis
  | kwThrow
  | kwThrows
  | kwTrait
  | kwTrue
  | kwTry
  | kwVoid
  | kwWhile
deriving DecidableEq, Repr, Inhabited

namespace Keyword

/-- Every reserved word, in alphabetical order of its spelling. -/
def all : List Keyword :=
  [ .kwAbstract, .kwAs, .kwAssert, .kwBoolean, .kwBreak, .kwByte,
    .kwCase, .kwCatch, .kwChar, .kwClass, .kwContinue, .kwDef,
    .kwDefault, .kwDo, .kwDouble, .kwElse, .kwEnum, .kwExtends,
    .kwFalse, .kwFinal, .kwFinally, .kwFloat, .kwFor, .kwIf,
    .kwImplements, .kwImport, .kwIn, .kwInstanceof, .kwInt, .kwInterface,
    .kwLong, .kwNew, .kwNull, .kwPackage, .kwPrivate, .kwProtected,
    .kwPublic, .kwReturn, .kwShort, .kwStatic, .kwSuper, .kwSwitch,
    .kwSynchronized, .kwThis, .kwThrow, .kwThrows, .kwTrait, .kwTrue,
    .kwTry, .kwVoid, .kwWhile ]

def spelling : Keyword → String
  | .kwAbstract => "abstract"
  | .kwAs => "as"
  | .kwAssert => "assert"
  | .kwBoolean => "boolean"
  | .kwBreak => "break"
  | .kwByte => "byte"
  | .kwCase => "case"
  | .kwCatch => "catch"
  | .kwChar => "char"
  | .kwClass => "class"
  | .kwContinue => "continue"
  | .kwDef => "def"
  | .kwDefault => "default"
  | .kwDo => "do"
  | .kwDouble => "double"
  | .kwElse => "else"
  | .kwEnum => "enum"
  | .kwExtends => "extends"
  | .kwFalse => "false"
  | .kwFinal => "final"
  | .kwFinally => "finally"
  | .kwFloat => "float"
  | .kwFor => "for"
  | .kwIf => "if"
  | .kwImplements => "implements"
  | .kwImport => "import"
  | .kwIn => "in"
  | .kwInstanceof => "instanceof"
  | .kwInt => "int"
  | .kwInterface => "interface"
  | .kwLong => "long"
  | .kwNew => "new"
  | .kwNull => "null"
  | .kwPackage => "package"
  | .kwPrivate => "private"
  | .kwProtected => "protected"
  | .kwPublic => "public"
  | .kwReturn => "return"
  | .kwShort => "short"
  | .kwStatic => "static"
  | .kwSuper => "super"
  | .kwSwitch => "switch"
  | .kwSynchronized => "synchronized"
  | .kwThis => "this"
  | .kwThrow => "throw"
  | .kwThrows => "throws"
  | .kwTrait => "trait"
  | .kwTrue => "true"
  | .kwTry => "try"
  | .kwVoid => "void"
  | .kwWhile => "while"

def lookup (word : Text) : Option Keyword :=
  all.find? fun k => k.spelling.toList == word

def isPrimitiveType : Keyword → Bool
  | .kwVoid | .kwBoolean | .kwByte | .kwChar | .kwShort | .kwInt | .kwFloat | .kwLong | .kwDouble => true
  | _ => false

/-- Whether a name after this word is being declared, or is for another reason
    no reference worth completing. -/
def suppressesCompletion : Keyword → Bool
  | .kwImport | .kwClass | .kwInterface | .kwEnum | .kwDef | .kwVoid | .kwBoolean | .kwByte
  | .kwChar | .kwShort | .kwInt | .kwFloat | .kwLong | .kwDouble | .kwPackage | .kwTrue
  | .kwFalse | .kwAs | .kwThis | .kwTry | .kwFinally | .kwCatch => true
  | _ => false

/-- Whether the word may come before a declaration without changing its kind. -/
def isModifier : Keyword → Bool
  | .kwPublic | .kwPrivate | .kwProtected | .kwStatic | .kwFinal | .kwAbstract
  | .kwSynchronized => true
  | _ => false

def declaresType : Keyword → Bool
  | .kwClass | .kwInterface | .kwEnum | .kwTrait => true
  | _ => false

end Keyword

end GroovyShell
