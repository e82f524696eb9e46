/-
  GroovyShell/Completion/Filenames.lean
  =====================================
  **File names inside a string.**

  What is typed after the opening quote is a directory, up to the last slash,
  and the beginning of a name in it.  A tilde stands for the home directory.
  Names that begin with a dot are left out unless they are asked for.
-/
import GroovyShell.Completion.Offer
import GroovyShell.Files.Disk

namespace GroovyShell

structure TypedPath where
  /-- The directory as typed, with its last slash. -/
  directory : Text
  /-- The beginning of the name. -/
  word : Text
deriving DecidableEq, Repr

/-- Take what is typed of a path apart.  A tilde alone is the home directory. -/
def TypedPath.ofText (typed : Text) : TypedPath :=
  if typed = ['~'] then ⟨['~', '/'], []⟩
  else
    let word := typed.lastPart '/'
    ⟨typed.take (typed.length - word.length), word⟩

def TypedPath.listedPath (home : Option Text) (p : TypedPath) : Option Text :=
  if p.directory.isEmpty then some ['.']
  else
    match p.directory.dropHead? ['~', '/'] with
    | some [] => home
    | some rest => home.map fun home => joinPath home rest
    | none => some p.directory

def TypedPath.offers (p : TypedPath) (showHidden : Bool) (name : Text) : Bool :=
  name.beginsWith p.word &&
    (showHidden || p.word.beginsWith ['.'] || !name.beginsWith ['.'])

/-- An entry as it is offered: directories end with a slash. -/
def shownEntry (entry : Text × Bool) : Text :=
  if entry.2 then entry.1 ++ ['/'] else entry.1

/-- Some texts in order, those that are equal included. -/
def inOrder (texts : List Text) : List Text :=
  texts.mergeSort fun a b => !decide (b < a)

theorem mem_inOrder {texts : List Text} {t : Text} : t ∈ inOrder texts ↔ t ∈ texts :=
  List.mem_mergeSort

/-- No text stands behind one that comes later. -/
theorem inOrder_sorted (texts : List Text) : (inOrder texts).Pairwise fun a b => ¬ b < a := by
  have sorted := @List.pairwise_mergeSort _ (fun a b : Text => !decide (b < a))
    (fun a b c hab hbc => by
      simp only [Bool.not_eq_true', decide_eq_false_iff_not, List.not_lt] at hab hbc ⊢
      exact List.le_trans hab hbc)
    (fun a b => by
      simpa only [Bool.or_eq_true, Bool.not_eq_true', decide_eq_false_iff_not, List.not_lt]
        using List.le_total a b)
    texts
  exact sorted.imp fun h => by simpa only [Bool.not_eq_true', decide_eq_false_iff_not] using h

/-- Completes file names.  Only what stands before the cursor counts. -/
def completeFilename (d : Disk) (showHidden : Bool) : FilenameCompleter := fun text cursor _ =>
  let typed := TypedPath.ofText (text.take cursor)
  match (typed.listedPath d.home).map d.list with
  | some (.ok entries) =>
    let found := (entries.filter fun e => typed.offers showHidden e.1).map shownEntry
    if found.isEmpty then .none
    else ⟨inOrder found, some typed.directory.length, []⟩
  | _ => .none

end GroovyShell
