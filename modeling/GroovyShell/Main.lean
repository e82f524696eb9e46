/-
  GroovyShell/Main.lean
  =====================
  **The program.**

  Everything that is decided is decided elsewhere; here it is connected to the
  terminal, the environment and the file system.  Without a line editor the
  shell reads plain lines, so nothing is completed and no history is kept.
-/
import GroovyShell.Launch.Interface
import GroovyShell.Shell.Repl

namespace GroovyShell

/-- What is said about a command line that does not lead to options. -/
def UsageStop.message : UsageStop → String
  | .unknownArgument => "error: unexpected argument"
  | .invalidSubcommand => "error: unrecognized subcommand"
  | .repeated => "error: an argument cannot be used multiple times"
  | .invalidValue => "error: a value is required"
  | .tooManyValues => "error: unexpected value"
  | .missingArgument => "error: a required argument was not provided"
  | .help => "Usage: " ++ programName ++ " [OPTIONS] [COMMAND]"
  | .version => programName ++ " " ++ Interface.versionNumber

/-- Whether a command line asks for something that is shown and then done with. -/
def UsageStop.isRequest : UsageStop → Bool
  | .help | .version => true
  | _ => false

/-- What is at the path of the configuration file. -/
def findConfigFile (path : Text) : IO ConfigFile := do
  try
    let content ← IO.FS.readFile path.string
    return .readable content.toList
  catch
    | .noFileOrDirectory .. => return .missing
    | e => return .unreadable (toString e)

/-- Read and process lines until the input ends or the shell is left. -/
partial def interact (r : Repl) (input output : IO.FS.Stream) : IO Unit := do
  output.putStr r.prompt
  output.flush
  let line ← input.getLine
  if line.isEmpty then return
  let line := line.toList
  let (r, outcome) := r.process (if line.getLast? = some '\n' then line.dropLast else line)
  match outcome with
  | .ok (.output text) => output.putStrLn text
  | .ok _ => pure ()
  | .error e => IO.eprintln e.message
  if r.running then interact r input output

/-- Run the program with its options. -/
def runProgram (o : Options) : IO UInt32 := do
  let home := (← IO.getEnv "HOME").map String.toList
  let file ← findConfigFile (o.configPath home)
  match Interface.prepare o home file with
  | .error e =>
    IO.eprintln ("Error: " ++ (ShellError.config e).message)
    return 1
  | .ok i =>
    IO.eprint i.warning
    match i.subcommandOutput with
    | .error e =>
      IO.eprintln ("Error: " ++ e.message)
      return 1
    | .ok (some text) =>
      IO.print text
      return 0
    | .ok none =>
      IO.print i.banner
      interact ⟨.new, i.config.completion, i.color, true⟩ (← IO.getStdin) (← IO.getStdout)
      return 0

end GroovyShell

/-- Read the command line and run. -/
def main (args : List String) : IO UInt32 := do
  match GroovyShell.readArguments ((GroovyShell.programName :: args).map String.toList) with
  | .ok o => GroovyShell.runProgram o
  | .error stop =>
    if stop.isRequest then
      IO.println stop.message
      return 0
    else
      IO.eprintln stop.message
      return 2
