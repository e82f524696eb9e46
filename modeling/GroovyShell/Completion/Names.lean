/-
  GroovyShell/Completion/Names.lean
  =================================
  **Where bare names come from.**

  Each source is a list of names: the language with the methods every script
  can call, the variables and methods of the session, imported classes, and
  classes of the session.
-/
import GroovyShell.Completion.Catalog
import GroovyShell.Completion.Offer
import GroovyShell.Session.State

namespace GroovyShell

/-- Reserved words and the methods every script can call. -/
def languageNames : List Text :=
  (Keyword.all.map Keyword.spelling ++ scriptMethods).map String.toList

/-- Variables and methods of a session; methods with an opening parenthesis. -/
def Session.ownNames (s : Session) : List Text :=
  s.bindings.names ++ s.methods.names.map fun name => name ++ ['(']

/-- The name an import clause introduces: the one after `as`, or the last part
    of the path.  An import of everything introduces no name in particular. -/
def importedName (clause : Text) : Option Text :=
  match clause.cutAt " as ".toList with
  | some (_, name) => some name.trim
  | none =>
    let last := clause.lastPart '.'
    if last = ['*'] then none else some last

def Session.importedNames (s : Session) : List Text :=
  s.imports.names.filterMap importedName ++ defaultClasses.map String.toList

inductive NameSource where
  | language
  | bindings
  | imports
  | classes
deriving DecidableEq, Repr

def NameSource.names (s : Session) : NameSource → List Text
  | .language => languageNames
  | .bindings => s.ownNames
  | .imports => s.importedNames
  | .classes => s.classes.names

def NameSource.completer (s : Session) (source : NameSource) : NameCompleter :=
  completeFrom (source.names s)

end GroovyShell
