/-
  GroovyShell/Launch/Arguments.lean
  =================================
  **The command line the shell is started with.**

  Options come first, then possibly a subcommand with options of its own.  An
  option may be given once.  The value of the configuration option may be
  attached to it or follow it; one that follows is only looked at once the next
  option, or the end, shows that it is complete, so that a fault found earlier
  in the line is not always the one reported.
-/
import GroovyShell.Text.Basic

namespace GroovyShell

/-- What the shell is to do instead of starting. -/
inductive Subcommand where
  | version
  /-- Write a completion script for the shell named. -/
  | completion (shell : Text)
  /-- Show or check the configuration. -/
  | config (shown checked : Bool)
deriving DecidableEq, Repr

structure Options where
  configFile : Option Text
  noColor : Bool
  noHistory : Bool
  quiet : Bool
  verbose : Bool
  veryVerbose : Bool
  command : Option Subcommand
deriving DecidableEq, Repr

def Options.none : Options := ⟨.none, false, false, false, false, false, .none⟩

/-- Why a command line does not lead to options: it is at fault, or it asks for
    help or for the version. -/
inductive UsageStop where
  | unknownArgument
  | invalidSubcommand
  /-- An option was given twice. -/
  | repeated
  /-- A value is missing or empty. -/
  | invalidValue
  /-- A value was given to an option that has none. -/
  | tooManyValues
  | missingArgument
  | help
  | version
deriving DecidableEq, Repr

/-! ### The shape of an argument -/

/-- How an argument looks. -/
inductive ArgumentShape where
  /-- Two dashes: nothing behind them is an option. -/
  | separator
  /-- A long option, with its attached value if it has one. -/
  | long (name : Text) (value : Option Text)
  /-- Short options in a row. -/
  | short (letters : Text)
  | plain
deriving DecidableEq, Repr

def shapeOf : Text → ArgumentShape
  | ['-', '-'] => .separator
  | '-' :: '-' :: t =>
    match Text.cut (· == '=') t with
    | some (name, value) => .long name (some value)
    | none => .long t none
  | ['-'] => .plain
  | '-' :: t => .short t
  | _ => .plain

/-! ### Subcommands -/

def subcommandNames : List String := ["version", "completion", "config", "help"]

def isSubcommandName (arg : Text) : Bool := subcommandNames.any fun n => n.toList == arg

/-- The fault of an option that a subcommand does not know; help it always knows. -/
def foreignOption : ArgumentShape → UsageStop
  | .long name value =>
    if name = "help".toList then if value.isSome then .tooManyValues else .help
    else .unknownArgument
  | .short ('h' :: _) => .help
  | _ => .unknownArgument

/-- Read the arguments of the version subcommand, which has none. -/
def readVersion : List Text → Except UsageStop Subcommand
  | [] => .ok .version
  | arg :: rest =>
    match shapeOf arg with
    | .separator => if rest.isEmpty then .ok .version else .error .unknownArgument
    | shape => .error (foreignOption shape)

/-- Read the arguments of the completion subcommand.  Behind the separator all of
    them are names of shells. -/
def readCompletionArgs (separated : Bool) (shell : Option Text) :
    List Text → Except UsageStop Subcommand
  | [] =>
    match shell with
    | some shell => .ok (.completion shell)
    | none => .error .missingArgument
  | arg :: rest =>
    match separated, shapeOf arg, shell with
    | false, .separator, _ => readCompletionArgs true shell rest
    | true, _, none | false, .plain, none => readCompletionArgs separated (some arg) rest
    | true, _, some _ | false, .plain, some _ => .error .unknownArgument
    | false, shape, _ => .error (foreignOption shape)

def readConfigArgs (shown checked : Bool) : List Text → Except UsageStop Subcommand
  | [] => .ok (.config shown checked)
  | arg :: rest =>
    match shapeOf arg with
    | .separator => if rest.isEmpty then .ok (.config shown checked) else .error .unknownArgument
    | .long name value =>
      if name = "show".toList ∨ name = "validate".toList then
        if value.isSome then .error .tooManyValues
        else if name = "show".toList then
          if shown then .error .repeated else readConfigArgs true checked rest
        else if checked then .error .repeated
        else readConfigArgs shown true rest
      else .error (foreignOption (.long name value))
    | shape => .error (foreignOption shape)

/-- Read the arguments of a request for help, which may name a subcommand. -/
def readHelp : List Text → UsageStop
  | [] => .help
  | [name] => if isSubcommandName name then .help else .invalidSubcommand
  | _ => .invalidSubcommand

def readSubcommand (name : Text) (args : List Text) : Except UsageStop Subcommand :=
  if name = "version".toList then readVersion args
  else if name = "completion".toList then readCompletionArgs false none args
  else if name = "config".toList then readConfigArgs false false args
  else .error (readHelp args)

/-! ### Options -/

/-- A value of the configuration option that has not been looked at yet. -/
inductive PendingFile where
  | none
  /-- The option was given and its value is to follow. -/
  | awaited
  | given (file : Text)
deriving DecidableEq, Repr

/-- What has been read of the command line. -/
structure Reading where
  options : Options
  pending : PendingFile
deriving DecidableEq, Repr

namespace Reading

/-- Take a value of the configuration option. -/
def takeFile (o : Options) (file : Text) : Except UsageStop Options :=
  if o.configFile.isSome then .error .repeated
  else if file.isEmpty then .error .invalidValue
  else .ok { o with configFile := some file }

/-- Look at the value that has not been looked at yet. -/
def settle (r : Reading) : Except UsageStop Options :=
  match r.pending with
  | .none => .ok r.options
  | .awaited => .error .invalidValue
  | .given file => takeFile r.options file

def awaits (r : Reading) : Bool := r.pending == .awaited

/-- Set an option that has no value; it must not be set already. -/
def setOnce (already : Bool) (set : Options) : Except UsageStop Reading :=
  if already then .error .repeated else .ok ⟨set, .none⟩

/-- The switches by name, and what they do. -/
def switch (o : Options) (name : String) : Option (Except UsageStop Reading) :=
  match name with
  | "no-color" => some (setOnce o.noColor { o with noColor := true })
  | "no-history" => some (setOnce o.noHistory { o with noHistory := true })
  | "quiet" => some (setOnce o.quiet { o with quiet := true })
  | "verbose" => some (setOnce o.verbose { o with verbose := true })
  | "vv" => some (setOnce o.veryVerbose { o with veryVerbose := true })
  | "help" => some (.error .help)
  | "version" => some (.error .version)
  | _ => none

def long (r : Reading) (name : Text) (value : Option Text) : Except UsageStop Reading :=
  if name = "config".toList then do
    let o ← r.settle
    match value with
    | some file => (takeFile o file).map fun o => ⟨o, .none⟩
    | none => .ok ⟨o, .awaited⟩
  else if (switch .none name.string).isNone then .error .unknownArgument
  else if value.isSome then .error .tooManyValues
  else do
    let o ← r.settle
    (switch o name.string).getD (.error .unknownArgument)

def longName : Char → Option String
  | 'q' => some "quiet"
  | 'v' => some "verbose"
  | 'h' => some "help"
  | 'V' => some "version"
  | _ => none

/-- Read short options in a row.  What follows the letter of the configuration
    option is its value, with or without an equals sign. -/
def short (r : Reading) : Text → Except UsageStop Reading
  | [] => .ok r
  | c :: t =>
    if c = 'c' then do
      let o ← r.settle
      match t with
      | [] => .ok ⟨o, .awaited⟩
      | '=' :: file => (takeFile o file).map fun o => ⟨o, .none⟩
      | file => (takeFile o file).map fun o => ⟨o, .none⟩
    else
      match longName c with
      | some name => do
        let o ← r.settle
        let r ← (switch o name).getD (.error .unknownArgument)
        short r t
      | none => .error .unknownArgument

def read (r : Reading) : List Text → Except UsageStop Options
  | [] => r.settle
  | arg :: rest =>
    if !r.awaits && isSubcommandName arg then do
      let command ← readSubcommand arg rest
      let o ← r.settle
      .ok { o with command := some command }
    else
      match shapeOf arg with
      | .separator =>
        match rest with
        | [] => r.settle
        | next :: _ =>
          .error (if isSubcommandName next then .unknownArgument else .invalidSubcommand)
      | .long name value => do
        let r ← r.long name value
        read r rest
      | .short letters => do
        let r ← r.short letters
        read r rest
      | .plain =>
        if r.awaits then read { r with pending := .given arg } rest else .error .invalidSubcommand

end Reading

/-- Read a command line, whose first word is the name of the program. -/
def readArguments (args : List Text) : Except UsageStop Options :=
  Reading.read ⟨.none, .none⟩ (args.drop 1)

end GroovyShell
