/-
  GroovyShell/Session/State.lean
  ==============================
  **What the shell knows about a session.**

  A session is the lines of the statement being typed and the names that
  finished statements have introduced.  Finished statements and the import
  command add to it, purging forgets; completion only reads it.
-/
import GroovyShell.Session.Command
import GroovyShell.Session.Declaration
import GroovyShell.Session.NameMap

namespace GroovyShell

structure Session where
  /-- The lines of the statement being typed, before the current one. -/
  buffer : List Text
  /-- Import clauses, such as `java.util.concurrent.*`. -/
  imports : NameSet
  /-- Variables with their types, where a type is known. -/
  bindings : NameMap (Option Text)
  methods : NameSet
  /-- Classes, interfaces, enumerations and traits. -/
  classes : NameSet
deriving DecidableEq

namespace Session

def new : Session := ⟨[], .empty, .empty, .empty, .empty⟩

def pushLine (s : Session) (line : Text) : Session :=
  { s with buffer := s.buffer ++ [line] }

def clearBuffer (s : Session) : Session := { s with buffer := [] }

/-- The statement that the lines typed so far and a further line form. -/
def statementWith (s : Session) (line : Text) : Text :=
  Text.below s.buffer line

/-- Add what a declaration introduces.  A type once known is kept when the
    variable is declared again without one. -/
def declare (s : Session) : Declaration → Session
  | .importing clause => { s with imports := s.imports.add clause }
  | .binding name (some type) => { s with bindings := s.bindings.insert name (some type) }
  | .binding name none =>
    if s.bindings.contains name then s
    else { s with bindings := s.bindings.insert name none }
  | .method name => { s with methods := s.methods.add name }
  | .type name => { s with classes := s.classes.add name }

def record (s : Session) (statement : Text) : Session :=
  (declarations statement).foldl declare s

/-- Add an import clause, without white space around it. -/
def addImport (s : Session) (clause : Text) : Session :=
  { s with imports := s.imports.add clause.trim }

def variableType (s : Session) (name : Text) : Option Text := (s.bindings.find? name).join

def hasVariable (s : Session) (name : Text) : Bool := s.bindings.contains name

def purge (s : Session) : Target → Session
  | .bindings => { s with bindings := .empty }
  | .methods => { s with methods := .empty }
  | .classes => { s with classes := .empty }
  | .imports => { s with imports := .empty }
  | .preferences => s
  | .all =>
    { s with bindings := .empty, methods := .empty, classes := .empty, imports := .empty }

end Session

end GroovyShell
