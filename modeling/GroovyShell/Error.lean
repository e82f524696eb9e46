/-
  GroovyShell/Error.lean
  ======================
  **What can go wrong, and what is said about it.**
-/
import GroovyShell.Text.Basic

namespace GroovyShell

/-- What is wrong with a configuration. -/
inductive ConfigError where
  /-- The file is there but cannot be read. -/
  | unreadable (path reason : String)
  /-- The text is not a configuration. -/
  | invalidFormat
  /-- A setting has a value it may not have. -/
  | invalidValue (field value : String)
  | other (message : String)
deriving DecidableEq, Repr

/-- What is wrong with a command line of the shell. -/
inductive CommandError where
  | unknown (word : String)
  | invalid (reason : String)
  | missingArgument (command argument : String)
deriving DecidableEq, Repr

/-- Any failure of the shell. -/
inductive ShellError where
  | config (error : ConfigError)
  | command (error : CommandError)
  /-- A file could not be written. -/
  | io (reason : String)
  /-- The line editor refused to start. -/
  | editor (reason : String)
deriving DecidableEq, Repr

def ConfigError.message : ConfigError → String
  | .unreadable path reason => "Cannot read config file " ++ path ++ ": " ++ reason
  | .invalidFormat => "Invalid config format"
  | .invalidValue field value => "Invalid value '" ++ value ++ "' for field '" ++ field ++ "'"
  | .other message => message

def CommandError.message : CommandError → String
  | .unknown word => "Unknown command: " ++ word
  | .invalid reason => "Invalid command: " ++ reason
  | .missingArgument command argument =>
    "Missing argument for " ++ command ++ ": " ++ argument

def ShellError.message : ShellError → String
  | .config e => "Configuration error: " ++ e.message
  | .command e => e.message
  | .io reason => "I/O error: " ++ reason
  | .editor reason => "Line editor error: " ++ reason

end GroovyShell
