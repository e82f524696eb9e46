/-
  GroovyShell/Config/Load.lean
  ============================
  **From a document to settings.**

  Every section and every setting may be missing and then has its default.  What
  a document holds beyond the settings is ignored, as long as its numbers can be
  represented.  A section may also be given as an array of its settings in their
  order, of which any at the end may be left out.
-/
import GroovyShell.Config.Reader
import GroovyShell.Config.Settings

namespace GroovyShell

def smallestInteger : Int := -170141183460469231731687303715884105728

def largestInteger : Int := 340282366920938463463374607431768211455

mutual

/-- Whether a value that is not used can be ignored. -/
def TomlValue.isIgnorable : TomlValue → Bool
  | .integer n => smallestInteger ≤ n && n ≤ largestInteger
  | .float tooLarge => !tooLarge
  | .array items => areIgnorable items
  | .tables newest older => entriesIgnorable newest && areIgnorable older
  | .table _ entries => entriesIgnorable entries
  | _ => true

def areIgnorable : List TomlValue → Bool
  | [] => true
  | v :: rest => v.isIgnorable && areIgnorable rest

def entriesIgnorable : TomlEntries → Bool
  | [] => true
  | (_, v) :: rest => v.isIgnorable && entriesIgnorable rest

end

/-! ### Single settings -/

def readSize : TomlValue → Option UInt64
  | .integer n => if 0 ≤ n ∧ n.toNat < UInt64.size then some (UInt64.ofNat n.toNat) else none
  | _ => none

def readPath : TomlValue → Option Text
  | .string content => some content
  | _ => none

def readSwitch : TomlValue → Option Bool
  | .boolean b => some b
  | _ => none

/-- A log level: its name, or a table that has it as its only key and nothing
    under that. -/
def readLevel : TomlValue → Option LogLevel
  | .string name => LogLevel.named name
  | .table _ [(name, .table _ [])] => LogLevel.named name
  | .table _ [(name, .array [])] => LogLevel.named name
  | _ => none

/-! ### Sections -/

/-- The values a section holds, by setting. -/
abbrev Section := Text → Option TomlValue

/-- The values of a section whose settings have the given names in their order.
    A date stands for a section in which nothing is set. -/
def readSection (names : List String) : TomlValue → Option Section
  | .table _ entries =>
    let known (key : Text) : Bool := names.any fun n => n.toList == key
    if entriesIgnorable (entries.filter fun e => !known e.1) then
      some fun name => entries.lookup name
    else none
  | .datetime => some fun _ => none
  | value => value.items.map fun items name => ((names.map String.toList).zip items).lookup name

/-- A setting of a section, or its default if the section does not have it. -/
def Section.get {α : Type} (s : Section) (name : String) (read : TomlValue → Option α)
    (default : α) : Option α :=
  match s name.toList with
  | some value => read value
  | none => some default

def historyNames : List String := ["max_size", "file_path", "persist"]

def loggingNames : List String := ["level", "file_path", "timestamps"]

def completionNames : List String :=
  [ "keywords", "variables", "imports", "custom_classes", "members", "filenames",
    "show_hidden_files" ]

def readHistory (home : Option Text) (value : TomlValue) : Option HistorySettings := do
  let s ← readSection historyNames value
  let default := HistorySettings.default home
  some
    { maxSize := ← s.get "max_size" readSize default.maxSize
      filePath := ← s.get "file_path" readPath default.filePath
      persist := ← s.get "persist" readSwitch default.persist }

def readLogging (value : TomlValue) : Option LoggingSettings := do
  let s ← readSection loggingNames value
  let default := LoggingSettings.default
  some
    { level := ← s.get "level" readLevel default.level
      filePath := ← s.get "file_path" (fun v => (readPath v).map some) default.filePath
      timestamps := ← s.get "timestamps" readSwitch default.timestamps }

def readCompletion (value : TomlValue) : Option CompletionSettings := do
  let s ← readSection completionNames value
  let default := CompletionSettings.default
  some
    { keywords := ← s.get "keywords" readSwitch default.keywords
      bindings := ← s.get "variables" readSwitch default.bindings
      imports := ← s.get "imports" readSwitch default.imports
      customClasses := ← s.get "custom_classes" readSwitch default.customClasses
      members := ← s.get "members" readSwitch default.members
      filenames := ← s.get "filenames" readSwitch default.filenames
      showHiddenFiles := ← s.get "show_hidden_files" readSwitch default.showHiddenFiles }

def readConfig (home : Option Text) (entries : TomlEntries) : Option Config := do
  let s ← readSection ["history", "logging", "completion"] (.table .header entries)
  some
    { history := ← s.get "history" (readHistory home) (.default home)
      logging := ← s.get "logging" readLogging .default
      completion := ← s.get "completion" readCompletion .default }

def configOfText (home : Option Text) (t : Text) : Except ConfigError Config :=
  match (readDocument t).bind (readConfig home) with
  | some c => .ok c
  | none => .error .invalidFormat

/-- What is found where the configuration should be: nothing, a text, or
    something that cannot be read, with the reason. -/
inductive ConfigFile where
  | missing
  | readable (content : Text)
  | unreadable (reason : String)
deriving DecidableEq, Repr

def Disk.configFile (d : Disk) (path : Text) : ConfigFile :=
  if d.has path then
    match d.readText path with
    | .ok content => .readable content
    | .error e => .unreadable e.message
  else .missing

/-- The settings in a configuration file: the defaults if there is no file. -/
def ConfigFile.settings (home : Option Text) (path : Text) :
    ConfigFile → Except ConfigError Config
  | .missing => .ok (.default home)
  | .readable content => configOfText home content
  | .unreadable reason => .error (.unreadable path.string reason)

/-- Load the settings from a file, or from the default place. -/
def loadConfig (d : Disk) (path : Option Text) : Except ConfigError Config :=
  let path := path.getD (defaultConfigPath d.home)
  (d.configFile path).settings d.home path

end GroovyShell
