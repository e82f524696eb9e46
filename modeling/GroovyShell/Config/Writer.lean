/-
  GroovyShell/Config/Writer.lean
  ==============================
  **Settings as a TOML document.**

  The document names every setting, section by section, so that it can be read
  back and edited.  A string is written in the first of the four notations that
  shows its content plainly.
-/
import GroovyShell.Config.Settings

namespace GroovyShell

/-! ### Strings -/

/-- The longest run of a character in a text; `current` is the run the text goes
    on with. -/
def longestRun (c : Char) (current : Nat) : Text → Nat
  | [] => current
  | d :: t => if d = c then longestRun c (current + 1) t else max current (longestRun c 0 t)

/-- Whether a character can only be written by an escape. -/
def needsEscape (c : Char) : Bool :=
  (c.toNat < 0x20 && c != '\t' && c != '\n') || c.toNat == 0x7F

inductive StringNotation where
  /-- Double quotes, with escapes. -/
  | basic
  /-- Single quotes, as it is. -/
  | literal
  /-- Three double quotes, with escapes. -/
  | basicBlock
  /-- Three single quotes, as it is. -/
  | literalBlock
deriving DecidableEq, Repr

def chosenNotation (t : Text) : StringNotation :=
  let special := t.any needsEscape
  let backslash := t.contains '\\'
  let lineBreak := t.contains '\n'
  let single := longestRun '\'' 0 t
  let double := longestRun '"' 0 t
  if !special && !backslash && !lineBreak && double == 0 then .basic
  else if !special && !lineBreak && single == 0 then .literal
  else if !special && !backslash && double ≤ 2 then .basicBlock
  else if !special && single ≤ 2 then .literalBlock
  else if lineBreak then .basicBlock
  else .basic

def hexDigit (n : Nat) : Char := (Nat.toDigits 16 n).headD '0' |>.toUpper

def numberEscape (c : Char) : Text :=
  let n := c.toNat
  ['\\', 'u', hexDigit (n / 4096 % 16), hexDigit (n / 256 % 16), hexDigit (n / 16 % 16),
    hexDigit (n % 16)]

/-- A character as it stands in a string with escapes. -/
def escapedChar (block : Bool) (c : Char) : Text :=
  if c = '\\' then ['\\', '\\']
  else if c = '\x08' then ['\\', 'b']
  else if c = '\t' then ['\\', 't']
  else if c = '\n' then if block then ['\n'] else ['\\', 'n']
  else if c = '\x0c' then ['\\', 'f']
  else if c = '\r' then ['\\', 'r']
  else if needsEscape c then numberEscape c
  else [c]

/-- The content of a string with escapes.  A quote is escaped where it could end
    the string: always in one line, and as the third in a row in a block. -/
def escapedContent (block : Bool) (quotes : Nat) : Text → Text
  | [] => []
  | c :: t =>
    if c = '"' then
      if !block || quotes + 1 = 3 then '\\' :: '"' :: escapedContent block 0 t
      else '"' :: escapedContent block (quotes + 1) t
    else escapedChar block c ++ escapedContent block 0 t

/-- A string in a notation.  A block of several lines starts on a line of its own. -/
def writeStringIn (n : StringNotation) (t : Text) : Text :=
  let opened : Text := if t.contains '\n' then ['\n'] else []
  match n with
  | .basic => '"' :: escapedContent false 0 t ++ ['"']
  | .literal => '\'' :: t ++ ['\'']
  | .basicBlock => "\"\"\"".toList ++ opened ++ escapedContent true 0 t ++ "\"\"\"".toList
  | .literalBlock => "'''".toList ++ opened ++ t ++ "'''".toList

def writeString (t : Text) : Text := writeStringIn (chosenNotation t) t

/-! ### Sections -/

def writeLine (name : String) (value : Text) : Text := name.toList ++ " = ".toList ++ value ++ ['\n']

def writeSwitch (b : Bool) : Text := (if b then "true" else "false").toList

def HistorySettings.write (h : HistorySettings) : Text :=
  "[history]\n".toList ++ writeLine "max_size" (toString h.maxSize).toList ++
    writeLine "file_path" (writeString h.filePath) ++ writeLine "persist" (writeSwitch h.persist)

def LoggingSettings.write (l : LoggingSettings) : Text :=
  "[logging]\n".toList ++ writeLine "level" (writeString l.level.spelling.toList) ++
    (match l.filePath with
      | some path => writeLine "file_path" (writeString path)
      | none => []) ++
    writeLine "timestamps" (writeSwitch l.timestamps)

def CompletionSettings.write (c : CompletionSettings) : Text :=
  "[completion]\n".toList ++ writeLine "keywords" (writeSwitch c.keywords) ++
    writeLine "variables" (writeSwitch c.bindings) ++
    writeLine "imports" (writeSwitch c.imports) ++
    writeLine "custom_classes" (writeSwitch c.customClasses) ++
    writeLine "members" (writeSwitch c.members) ++
    writeLine "filenames" (writeSwitch c.filenames) ++
    writeLine "show_hidden_files" (writeSwitch c.showHiddenFiles)

def Config.write (c : Config) : Text :=
  c.history.write ++ ['\n'] ++ c.logging.write ++ ['\n'] ++ c.completion.write

/-- Save the settings in a file, whose directory is made if it is missing. -/
def Config.save (c : Config) (d : Disk) (path : Text) : Except ShellError Disk :=
  match (d.makeParents path).bind fun d => d.writeText path c.write with
  | .ok d => .ok d
  | .error e => .error (.io e.message)

end GroovyShell
