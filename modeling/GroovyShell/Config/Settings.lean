/-
  GroovyShell/Config/Settings.lean
  ================================
  **The settings of the shell and their defaults.**

  Every setting has a default, so a configuration may name any part of them or
  none.  Two settings have values they may not have; they are checked before a
  configuration is used.
-/
import GroovyShell.Error
import GroovyShell.Files.Disk

namespace GroovyShell

/-- How many and where past inputs are kept. -/
structure HistorySettings where
  maxSize : UInt64
  filePath : Text
  persist : Bool
deriving DecidableEq, Repr

inductive LogLevel where
  | error
  | warn
  | info
  | debug
  | trace
deriving DecidableEq, Repr

/-- What is logged and where. -/
structure LoggingSettings where
  level : LogLevel
  /-- The log file; without one the log goes to the terminal. -/
  filePath : Option Text
  timestamps : Bool
deriving DecidableEq, Repr

structure CompletionSettings where
  keywords : Bool
  bindings : Bool
  imports : Bool
  customClasses : Bool
  members : Bool
  filenames : Bool
  showHiddenFiles : Bool
deriving DecidableEq, Repr

structure Config where
  history : HistorySettings
  logging : LoggingSettings
  completion : CompletionSettings
deriving DecidableEq, Repr

def LogLevel.spelling : LogLevel → String
  | .error => "error"
  | .warn => "warn"
  | .info => "info"
  | .debug => "debug"
  | .trace => "trace"

def LogLevel.named (word : Text) : Option LogLevel :=
  [LogLevel.error, .warn, .info, .debug, .trace].find? fun l => l.spelling.toList == word

/-! ### Defaults -/

def shellDirectory (home : Option Text) : Text := joinPath (home.getD ['.']) ".groovysh".toList

/-- Where the configuration is, unless another file is named. -/
def defaultConfigPath (home : Option Text) : Text :=
  joinPath (shellDirectory home) "config.toml".toList

def HistorySettings.default (home : Option Text) : HistorySettings :=
  ⟨1000, joinPath (shellDirectory home) "history".toList, true⟩

def LoggingSettings.default : LoggingSettings := ⟨.warn, none, true⟩

def CompletionSettings.default : CompletionSettings := ⟨true, true, true, true, true, true, false⟩

def Config.default (home : Option Text) : Config :=
  ⟨.default home, .default, .default⟩

/-! ### Checking -/

/-- What is wrong with the settings, if anything is. -/
def Config.problem (c : Config) : Option ConfigError :=
  if c.history.maxSize = 0 then some (.invalidValue "history.max_size" "0")
  else if c.history.persist ∧ c.history.filePath.isEmpty then
    some (.invalidValue "history.file_path" "")
  else none

end GroovyShell
