/-
  GroovyShell/Launch/Interface.lean
  =================================
  **From options and a configuration file to a shell, or to what is printed
  instead of it.**

  The settings come from the file, or from the defaults if they may not be used;
  the options of the command line have the last word.
-/
import GroovyShell.Config.Load
import GroovyShell.Config.Writer
import GroovyShell.Launch.Arguments

namespace GroovyShell

/-! ### Completion scripts -/

inductive ScriptShell where
  | bash
  | zsh
  | fish
  | powershell
  | elvish
deriving DecidableEq, Repr

def ScriptShell.name : ScriptShell → String
  | .bash => "bash"
  | .zsh => "zsh"
  | .fish => "fish"
  | .powershell => "powershell"
  | .elvish => "elvish"

/-- The shell a word names, in whatever case. -/
def ScriptShell.named (word : Text) : Except ConfigError ScriptShell :=
  let lower : Text := word.map Char.toLower
  match lower.string with
  | "bash" => .ok .bash
  | "zsh" => .ok .zsh
  | "fish" => .ok .fish
  | "powershell" | "pwsh" => .ok .powershell
  | "elvish" => .ok .elvish
  | _ =>
    .error (.other ("Unsupported shell: " ++ word.string ++
      ". Supported shells: bash, zsh, fish, powershell, elvish"))

def programName : String := "groovysh"

def completionScript (shell : ScriptShell) : String :=
  let words := " ".intercalate subcommandNames
  match shell with
  | .bash => "complete -W '" ++ words ++ "' " ++ programName ++ "\n"
  | .zsh => "#compdef " ++ programName ++ "\n_values subcommand " ++ words ++ "\n"
  | .fish => "complete -c " ++ programName ++ " -f -a '" ++ words ++ "'\n"
  | .powershell =>
    "Register-ArgumentCompleter -Native -CommandName " ++ programName ++
      " -ScriptBlock \x7b -split '" ++ words ++ "' \x7d\n"
  | .elvish =>
    "set edit:completion:arg-completer[" ++ programName ++ "] = \x7b |@words| put " ++ words ++
      " \x7d\n"

def scriptFor (word : Text) : Except ConfigError String :=
  (ScriptShell.named word).map completionScript

/-! ### Settings in effect -/

/-- Settings with the options of the command line applied to them. -/
def Config.withOptions (c : Config) (o : Options) : Config :=
  { c with
    history := { c.history with persist := c.history.persist && !o.noHistory }
    logging :=
      { c.logging with
        level :=
          if o.veryVerbose then .trace
          else if o.verbose then .debug
          else if o.quiet then .error
          else c.logging.level } }

/-- A program about to do what its command line asks for. -/
structure Interface where
  options : Options
  home : Option Text
  configPath : Text
  configFile : ConfigFile
  config : Config
  /-- What is said on the error output before anything else. -/
  warning : String
deriving DecidableEq, Repr

def Options.configPath (o : Options) (home : Option Text) : Text :=
  o.configFile.getD (defaultConfigPath home)

/-- What is said when the settings of the file may not be used. -/
def unusableWarning (problem : ConfigError) : String :=
  "Warning: Configuration validation failed: " ++ (ShellError.config problem).message ++
    "\nUsing default configuration instead.\n"

namespace Interface

/-- Prepare the program, given its options and what is at the path of its
    configuration file. -/
def prepare (o : Options) (home : Option Text) (file : ConfigFile) :
    Except ConfigError Interface :=
  let path := o.configPath home
  (file.settings home path).map fun c =>
    match c.problem with
    | none => ⟨o, home, path, file, c.withOptions o, ""⟩
    | some problem =>
      ⟨o, home, path, file, (Config.default home).withOptions o, unusableWarning problem⟩

def color (i : Interface) : Bool := !i.options.noColor

def versionNumber : String := "0.1.0"

def versionText : String :=
  programName ++ " version " ++ versionNumber ++ "\nRust version: 1.91\n"

def fileVerdict (i : Interface) : String :=
  i.configPath.string ++ ": " ++
    match i.configFile with
    | .missing => "no such file, defaults apply"
    | file =>
      match file.settings i.home i.configPath with
      | .error e => (ShellError.config e).message
      | .ok c =>
        match c.problem with
        | some problem => (ShellError.config problem).message
        | none => "configuration is valid"

def configText (i : Interface) (shown checked : Bool) : String :=
  (if checked then i.fileVerdict ++ "\n" else "") ++
    (if shown then
      "Configuration file: " ++ i.configPath.string ++ "\n\n" ++ i.config.write.string ++ "\n"
    else "")

def subcommandOutput (i : Interface) : Except ShellError (Option String) :=
  match i.options.command with
  | none => .ok none
  | some .version => .ok (some versionText)
  | some (.completion shell) =>
    match scriptFor shell with
    | .ok script => .ok (some script)
    | .error e => .error (.config e)
  | some (.config shown checked) => .ok (some (i.configText shown checked))

def banner (i : Interface) : String :=
  if i.options.quiet then ""
  else "Groovy Shell (" ++ versionNumber ++ ")\nType ':help' or ':h' for help.\n"

end Interface

end GroovyShell
