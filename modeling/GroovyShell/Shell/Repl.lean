/-
  GroovyShell/Shell/Repl.lean
  ===========================
  **What the shell does with a line.**

  A line is a command, or it goes on with the statement being typed.  A finished
  statement is recorded in the session; an unfinished one is kept and waits for
  the next line.  While a statement is being typed, only a line that names a
  command is one, for Groovy too may begin a line with a colon.
-/
import GroovyShell.Config.Settings
import GroovyShell.Session.State
import GroovyShell.Shell.Prompt
import GroovyShell.Statement

namespace GroovyShell

/-- What a line led to. -/
inductive Action where
  | nothing
  /-- The line was added to an unfinished statement. -/
  | buffered
  /-- A statement was finished and what it declares recorded. -/
  | recorded (statement : Text)
  /-- A text for the user. -/
  | output (text : String)
  | exit
deriving DecidableEq, Repr

/-- The shell between two lines. -/
structure Repl where
  session : Session
  completion : CompletionSettings
  /-- Whether the prompt is colored. -/
  color : Bool
  running : Bool
deriving DecidableEq

/-! ### Listings -/

def titled (title : String) (lines : List String) : String :=
  if lines.isEmpty then title ++ ": none"
  else title ++ ":\n" ++ "\n".intercalate lines

/-- The settings of completion by name, in order. -/
def CompletionSettings.listed (c : CompletionSettings) : List (String × Bool) :=
  [ ("keywords", c.keywords), ("variables", c.bindings), ("imports", c.imports),
    ("custom_classes", c.customClasses), ("members", c.members), ("filenames", c.filenames),
    ("show_hidden_files", c.showHiddenFiles) ]

namespace Repl

def variableLines (s : Session) : List String :=
  s.bindings.entries.map fun e =>
    match e.2 with
    | some type => "  " ++ e.1.string ++ " : " ++ type.string
    | none => "  " ++ e.1.string

def listing (r : Repl) : Target → String
  | .bindings => titled "Variables" (variableLines r.session)
  | .methods =>
    titled "Methods" (r.session.methods.names.map fun m => "  " ++ m.string ++ "()")
  | .classes => titled "Classes" (r.session.classes.names.map fun c => "  " ++ c.string)
  | .imports =>
    titled "Imports" (r.session.imports.names.map fun i => "  import " ++ i.string)
  | .preferences =>
    titled "Preferences"
      (r.completion.listed.map fun p => "  completion." ++ p.1 ++ " = " ++ toString p.2)
  | .all => ""

/-- The listing of a target; that of everything is the other listings. -/
def list (r : Repl) : Target → String
  | .all =>
    "\n".intercalate
      (([.bindings, .methods, .classes, .imports, .preferences] : List Target).map r.listing)
  | target => r.listing target

/-- The numbered lines of the statement being typed. -/
def displayBuffer (s : Session) : String :=
  if s.buffer.isEmpty then "Buffer is empty"
  else
    "\n".intercalate
      (s.buffer.mapIdx fun i line => threeDigits i ++ "> " ++ line.string)

/-- What a target is called once it is forgotten. -/
def purgedName : Target → String
  | .bindings => "variables"
  | .methods => "methods"
  | .classes => "classes"
  | .imports => "imports"
  | .preferences => "preferences"
  | .all => "everything"

/-! ### Lines -/

def prompt (r : Repl) : String := promptText r.color r.session.buffer.length

def runCommand (r : Repl) : Command → Repl × Action
  | .help topic => (r, .output (helpText topic))
  | .exit => ({ r with running := false }, .exit)
  | .display => (r, .output (displayBuffer r.session))
  | .clear => ({ r with session := r.session.clearBuffer }, .output "Buffer cleared")
  | .list target => (r, .output (r.list target))
  | .purge target =>
    ({ r with session := r.session.purge target }, .output ("Purged " ++ purgedName target))
  | .addImport clause =>
    ({ r with session := r.session.addImport clause },
      .output ("Imported " ++ clause.string))

/-- Whether the first word of a line names a command. -/
def namesCommand (line : Text) : Bool :=
  (CommandName.named (line.trimStart.takeWhile fun c => !isBlank c)).isSome

def isCommand (r : Repl) (line : Text) : Bool :=
  isCommandLine line && (r.session.buffer.isEmpty || namesCommand line)

def continueStatement (r : Repl) (line : Text) : Repl × Action :=
  let statement := r.session.statementWith line
  match completeness statement with
  | .incomplete => ({ r with session := r.session.pushLine line }, .buffered)
  | .complete =>
    ({ r with session := (r.session.record statement).clearBuffer }, .recorded statement)

/-- Process a line.  A command that cannot be read changes nothing. -/
def process (r : Repl) (line : Text) : Repl × Except CommandError Action :=
  if r.session.buffer.isEmpty ∧ line.isBlankOnly then (r, .ok .nothing)
  else if r.isCommand line then
    match readCommand line with
    | .ok command =>
      let (r, action) := r.runCommand command
      (r, .ok action)
    | .error e => (r, .error e)
  else
    let (r, action) := r.continueStatement line
    (r, .ok action)

/-- The shell at the beginning of a session.  Starting it prepares the history,
    in its file if it is to be kept. -/
def start (completion : CompletionSettings) (color : Bool) (history : HistorySettings) (d : Disk) :
    Except ShellError (Repl × Disk) :=
  let r : Repl := ⟨.new, completion, color, true⟩
  if history.persist then
    (History.openFile history.maxSize.toNat history.filePath d).map fun d => (r, d)
  else (History.new history.maxSize.toNat).map fun _ => (r, d)

end Repl

end GroovyShell
