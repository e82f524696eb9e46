/-
  GroovyShell/Files/Disk.lean
  ===========================
  **Files, directories and links, and what a path leads to.**

  The shell lists directories, reads and writes its configuration, and creates
  its history file.  All of that is done here on a plain tree, so that what the
  shell does with files is a function like everything else.  A path is followed
  name by name from the working directory or from the root; links are followed
  wherever they stand, but only so many in a row.
-/
import GroovyShell.Text.Basic

namespace GroovyShell

/-- What a file holds: text, or bytes that are no text. -/
inductive FileContent where
  | text (content : Text)
  | binary
deriving DecidableEq, Repr

/-- A file, a link with the path it stands for, or a directory. -/
inductive Node where
  | file (content : FileContent)
  | link (target : Text)
  | dir (entries : List (Text × Node))

/-- Everything that can be reached: the tree, the directory paths start from, and
    the home directory if there is one. -/
structure Disk where
  root : Node
  workingDirectory : List Text
  home : Option Text

/-- Why something cannot be done with a path. -/
inductive FileError where
  | notFound
  | alreadyExists
  | isDirectory
  | notDirectory
  | tooManyLinks
  | nameTooLong
  | nulInName
  | notText
deriving DecidableEq, Repr

def FileError.message : FileError → String
  | .notFound => "No such file or directory (os error 2)"
  | .alreadyExists => "File exists (os error 17)"
  | .isDirectory => "Is a directory (os error 21)"
  | .notDirectory => "Not a directory (os error 20)"
  | .tooManyLinks => "Too many levels of symbolic links (os error 40)"
  | .nameTooLong => "File name too long (os error 36)"
  | .nulInName => "file name contained an unexpected NUL byte"
  | .notText => "stream did not contain valid UTF-8"

/-! ### Nodes -/

namespace Node

def isDir : Node → Bool
  | .dir _ => true
  | _ => false

/-- The node a list of names leads to, links not followed. -/
def at? : List Text → Node → Option Node
  | [], n => some n
  | name :: rest, .dir entries => (entries.lookup name).bind (at? rest)
  | _ :: _, _ => none

/-- Put an entry into a list of entries, in the place of one of the same name. -/
def setEntry (name : Text) (new : Node) : List (Text × Node) → List (Text × Node)
  | [] => [(name, new)]
  | (other, n) :: rest =>
    if other = name then (name, new) :: rest else (other, n) :: setEntry name new rest

/-- Put an entry into the directory some names lead to. -/
def put (name : Text) (new : Node) : List Text → Node → Node
  | [], .dir entries => .dir (setEntry name new entries)
  | part :: path, .dir entries =>
    .dir (entries.map fun e => if e.1 = part then (e.1, put name new path e.2) else e)
  | _, n => n

end Node

/-! ### Paths -/

def isAbsolute (path : Text) : Bool := path.beginsWith ['/']

/-- The names of a path.  A `.` is only a name where the path begins with it. -/
def pathNames (path : Text) : List Text :=
  let parts := path.parts '/'
  let kept := (parts.drop 1).filter fun p => !p.isEmpty && p != ['.']
  match parts with
  | first :: _ => if first.isEmpty then kept else first :: kept
  | [] => kept

def pathOf (absolute : Bool) (names : List Text) : Text :=
  (if absolute then ['/'] else []) ++ Text.joined ['/'] names

/-- A path taken from a directory, unless it starts at the root. -/
def joinPath (base path : Text) : Text :=
  if isAbsolute path ∨ base.isEmpty then path
  else if base.finishesWith ['/'] then base ++ path
  else base ++ '/' :: path

/-- What a path leads to: a node, with the names that lead there from the root,
    or a name that is free in a directory. -/
inductive Destination where
  | existing (names : List Text)
  | free (parent : List Text) (name : Text)
deriving DecidableEq, Repr

/-- What a path is followed for: to see what is there, to put something there, or
    to open a file there for writing.  A link at the end of the path is followed
    unless something is put in its place. -/
inductive PathUse where
  | look
  | place
  | write
deriving DecidableEq, Repr

namespace Disk

/-- The node some names lead to from the root. -/
def nodeAt (d : Disk) (names : List Text) : Option Node := d.root.at? names

/-- Follow the parts of a path from a directory.  At most `links` links are
    followed.  A name with nothing but slashes behind it can only be a directory,
    so no file is opened for writing there, whether it exists or not; this holds
    of the path a link at the end stands for as well. -/
def follow (d : Disk) (use : PathUse) (links : Nat) (here : List Text) (parts : List Text) :
    Except FileError Destination :=
  match parts with
  | [] => .ok (.existing here)
  | part :: rest =>
    match d.nodeAt here with
    | some (.dir entries) =>
      if part.isEmpty ∨ part = ['.'] then d.follow use links here rest
      else if part = ['.', '.'] then d.follow use links here.dropLast rest
      else if use = .write ∧ ¬ rest.isEmpty ∧ rest.all List.isEmpty then .error .isDirectory
      else if part.string.utf8ByteSize > 255 then .error .nameTooLong
      else
        match entries.lookup part with
        | none => if rest.isEmpty then .ok (.free here part) else .error .notFound
        | some (.link target) =>
          if rest.isEmpty ∧ use = .place then .ok (.existing (here ++ [part]))
          else
            match links with
            | 0 => .error .tooManyLinks
            | links + 1 =>
              d.follow use links (if isAbsolute target then [] else here)
                (target.parts '/' ++ rest)
        | some _ => d.follow use links (here ++ [part]) rest
    | _ => .error .notDirectory
termination_by (links, parts.length)

def destination (d : Disk) (use : PathUse) (path : Text) : Except FileError Destination :=
  if path.contains '\x00' then .error .nulInName
  else if path.isEmpty then .error .notFound
  else if path.string.utf8ByteSize > 4095 then .error .nameTooLong
  else d.follow use 40 (if isAbsolute path then [] else d.workingDirectory) (path.parts '/')

def node (d : Disk) (path : Text) : Except FileError Node :=
  match d.destination .look path with
  | .ok (.existing names) =>
    match d.nodeAt names with
    | some n => .ok n
    | none => .error .notFound
  | .ok (.free _ _) => .error .notFound
  | .error e => .error e

def has (d : Disk) (path : Text) : Bool := (d.node path).toOption.isSome

def hasDir (d : Disk) (path : Text) : Bool := (d.node path).toOption.any Node.isDir

/-- The names in the directory at a path, each with whether it is a directory
    itself.  A link to a directory is not. -/
def list (d : Disk) (path : Text) : Except FileError (List (Text × Bool)) :=
  match d.node path with
  | .ok (.dir entries) => .ok (entries.map fun e => (e.1, e.2.isDir))
  | .ok _ => .error .notDirectory
  | .error e => .error e

def readText (d : Disk) (path : Text) : Except FileError Text :=
  match d.node path with
  | .ok (.file (.text content)) => .ok content
  | .ok (.file .binary) => .error .notText
  | .ok (.dir _) => .error .isDirectory
  | .ok (.link _) => .error .notFound
  | .error e => .error e

/-! ### Changes -/

/-- Put an entry into a directory. -/
def put (d : Disk) (parent : List Text) (name : Text) (new : Node) : Disk :=
  { d with root := Node.put name new parent d.root }

/-- Put a node where a path leads, a link at its end not being followed. -/
def install (d : Disk) (path : Text) (new : Node) : Except FileError Disk :=
  match d.destination .place path with
  | .ok (.free parent name) => .ok (d.put parent name new)
  | .ok (.existing names) =>
    match names.getLast? with
    | some name => .ok (d.put names.dropLast name new)
    | none => .error .isDirectory
  | .error e => .error e

def makeDir (d : Disk) (path : Text) : Except FileError Disk :=
  match d.destination .place path with
  | .ok (.free parent name) => .ok (d.put parent name (.dir []))
  | .ok (.existing _) => .error .alreadyExists
  | .error e => .error e

/-- Make the directory of some names, given in reverse, and those above it that
    are missing. -/
def makeDirsBack (d : Disk) (absolute : Bool) : List Text → Except FileError Disk
  | [] => .ok d
  | name :: above =>
    let path := pathOf absolute (name :: above).reverse
    match d.makeDir path with
    | .ok d => .ok d
    | .error .notFound =>
      match d.makeDirsBack absolute above with
      | .ok d =>
        match d.makeDir path with
        | .ok d => .ok d
        | .error e => if d.hasDir path then .ok d else .error e
      | .error e => .error e
    | .error e => if d.hasDir path then .ok d else .error e

/-- Make the directory at a path, with those above it that are missing. -/
def makeDirs (d : Disk) (path : Text) : Except FileError Disk :=
  d.makeDirsBack (isAbsolute path) (pathNames path).reverse

/-- Make the directory that is to hold the file at a path, with those above it. -/
def makeParents (d : Disk) (path : Text) : Except FileError Disk :=
  d.makeDirsBack (isAbsolute path) ((pathNames path).reverse.drop 1)

/-- Put a text into the file at a path, which is made if it is missing. -/
def writeText (d : Disk) (path content : Text) : Except FileError Disk :=
  match d.destination .write path with
  | .ok (.free parent name) => .ok (d.put parent name (.file (.text content)))
  | .ok (.existing names) =>
    match d.nodeAt names, names.getLast? with
    | some (.file _), some name => .ok (d.put names.dropLast name (.file (.text content)))
    | _, _ => .error .isDirectory
  | .error e => .error e

/-- Open a file of lines for reading and writing: it is made empty if it is
    missing, and must hold text. -/
def openLines (d : Disk) (path : Text) : Except FileError Disk :=
  match d.destination .write path with
  | .ok (.free parent name) => .ok (d.put parent name (.file (.text [])))
  | .ok (.existing names) =>
    match d.nodeAt names with
    | some (.file (.text _)) => .ok d
    | some (.file .binary) => .error .notText
    | _ => .error .isDirectory
  | .error e => .error e

end Disk

end GroovyShell
