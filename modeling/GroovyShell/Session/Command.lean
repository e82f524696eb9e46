/-
  GroovyShell/Session/Command.lean
  ================================
  **The commands of the shell itself.**

  A line that begins with a colon is no Groovy but a command.  One table names
  and describes the commands: lines are recognised by it, the help text is made
  from it, and completion asks it which lines to leave alone.
-/
import GroovyShell.Error

namespace GroovyShell

/-- What can be listed and forgotten. -/
inductive Target where
  | bindings
  | methods
  | classes
  | imports
  | preferences
  | all
deriving DecidableEq, Repr

def Target.named (word : Text) : Option Target :=
  if word = "variables".toList ∨ word = "vars".toList then some .bindings
  else if word = "methods".toList then some .methods
  else if word = "classes".toList then some .classes
  else if word = "imports".toList then some .imports
  else if word = "preferences".toList ∨ word = "prefs".toList then some .preferences
  else if word = "all".toList then some .all
  else none

inductive Command where
  | help (topic : Option Text)
  | exit
  | display
  | clear
  | list (target : Target)
  | purge (target : Target)
  | addImport (clause : Text)
deriving DecidableEq, Repr

/-! ### The table -/

inductive CommandName where
  | help
  | exit
  | display
  | clear
  | list
  | purge
  | addImport
deriving DecidableEq, Repr

namespace CommandName

/-- Every command, in the order of the help text. -/
def all : List CommandName := [.help, .exit, .display, .clear, .list, .purge, .addImport]

def spelling : CommandName → String
  | .help => ":help"
  | .exit => ":exit"
  | .display => ":display"
  | .clear => ":clear"
  | .list => ":show"
  | .purge => ":purge"
  | .addImport => ":import"

/-- The short forms of a command, in the order of the help text. -/
def aliases : CommandName → List String
  | .help => [":h", ":?"]
  | .exit => [":x", ":q"]
  | .display => [":d"]
  | .clear => [":c"]
  | .list => [":S"]
  | .purge => [":p"]
  | .addImport => [":i"]

/-- The words a target can be given by, as shown to the user. -/
def targetWords : String := "variables|methods|classes|imports|preferences|all"

def usage : CommandName → String
  | .help => ":help [command]"
  | .exit => ":exit"
  | .display => ":display"
  | .clear => ":clear"
  | .list => ":show [" ++ targetWords ++ "]"
  | .purge => ":purge [" ++ targetWords ++ "]"
  | .addImport => ":import <name>"

def description : CommandName → String
  | .help => "Display this help message"
  | .exit => "Exit the shell"
  | .display => "Display the current buffer"
  | .clear => "Clear the buffer"
  | .list => "Show variables, methods, classes or imports"
  | .purge => "Purge variables, methods, classes or imports"
  | .addImport => "Import a class into the namespace"

def isNamedBy (c : CommandName) (word : Text) : Bool :=
  (c.spelling :: c.aliases).any fun s => s.toList == word

def named (word : Text) : Option CommandName := all.find? fun c => c.isNamedBy word

end CommandName

/-- A command as completion sees it: a name and other names. -/
structure CommandEntry where
  name : Text
  aliases : List Text
deriving DecidableEq, Repr

def CommandEntry.isNamedBy (c : CommandEntry) (word : Text) : Bool :=
  c.name == word || c.aliases.contains word

/-- The commands of the shell as completion sees them. -/
def builtinCommands : List CommandEntry :=
  CommandName.all.map fun c => ⟨c.spelling.toList, c.aliases.map String.toList⟩

/-! ### Help -/

def padded (width : Nat) (s : String) : String :=
  s ++ String.ofList (List.replicate (width - s.length) ' ')

def CommandName.helpLine (c : CommandName) : String :=
  "  " ++ padded 10 c.spelling ++ " (" ++ padded 8 (", ".intercalate c.aliases) ++ ")  " ++
    c.description ++ "\n"

/-- Help on every command, or on one, whose colon may be left out. -/
def helpText : Option Text → String
  | none =>
    "Available commands:\n" ++ String.join (CommandName.all.map CommandName.helpLine) ++
      "\nFor help on a specific command type:\n    :help <command>"
  | some topic =>
    let word := if topic.beginsWith [':'] then topic else ':' :: topic
    match CommandName.named word with
    | some c => "usage: " ++ c.usage ++ "\n\n" ++ c.description
    | none => "No such command: " ++ topic.string

/-! ### Reading a command line -/

def isCommandLine (line : Text) : Bool := line.trimStart.beginsWith [':']

/-- Whether a text is a single name: a letter, underscore or dollar sign and
    then any of these and digits. -/
def isPlainName : Text → Bool
  | [] => false
  | c :: t => startsName c && t.all continuesName

/-- Whether a text is a dotted path of names, possibly with `.*` at its end. -/
def isImportPath (path : Text) : Bool :=
  let path := (path.dropTail? ".*".toList).getD path
  !path.isEmpty && (path.parts '.').all isPlainName

/-- Whether a text can be imported: a path, possibly with a name to know it by. -/
def isImportable (clause : Text) : Bool :=
  match clause.cutAt " as ".toList with
  | some (path, name) => isPlainName name.trim && isImportPath path.trim
  | none => isImportPath clause

def readImport (argument : Text) : Except CommandError Command :=
  let name :=
    match argument.dropHead? "static ".toList with
    | some rest => rest.trim
    | none => argument
  if name.isEmpty then .error (.missingArgument ":import" "name")
  else if isImportable name then .ok (.addImport argument)
  else .error (.invalid ("Invalid import: " ++ name.string))

/-- Read the argument of a command that needs a target. -/
def readTarget (command : CommandName) (argument : Text) : Except CommandError Target :=
  if argument.isEmpty then .error (.missingArgument command.spelling CommandName.targetWords)
  else
    match Target.named argument with
    | some target => .ok target
    | none =>
      .error (.invalid ("Unknown target for " ++ command.spelling ++ ": " ++ argument.string))

/-- The first word of a trimmed line and the trimmed rest. -/
def firstWord (line : Text) : Text × Text :=
  match line.trim.cut isBlank with
  | some (word, rest) => (word, rest.trim)
  | none => (line.trim, [])

def readCommand (line : Text) : Except CommandError Command :=
  let (word, argument) := firstWord line
  match CommandName.named word with
  | none => .error (.unknown word.string)
  | some .help => .ok (.help (if argument.isEmpty then none else some argument))
  | some .exit => .ok .exit
  | some .display => .ok .display
  | some .clear => .ok .clear
  | some .list => (readTarget .list argument).map .list
  | some .purge => (readTarget .purge argument).map .purge
  | some .addImport => readImport argument

end GroovyShell
