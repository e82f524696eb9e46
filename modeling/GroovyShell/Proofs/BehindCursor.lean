/-
  GroovyShell/Proofs/BehindCursor.lean
  ====================================
  **Text behind the cursor has no say.**

  Completion is given a whole line and a cursor in it.  The tokens are read from
  the text before the cursor.  A file name is different: its completer is handed
  the rest of the line from the quote on, and a cursor counted from there; that it
  cuts the text at this cursor brings back the text between the quote and the
  cursor.  What is left is the question whether the line is empty, and an empty
  line has nothing before the cursor to complete.
-/
import Mathlib
import GroovyShell.Completion.Suggestion
import GroovyShell.Proofs.CommandWords
import GroovyShell.Proofs.CursorToken
import GroovyShell.Proofs.OpenQuote

namespace GroovyShell

/-! ### Lines of commands -/

/-- A line that begins with a command and a space. -/
def LeadsWithCommand (line : Text) : Prop :=
  ∃ word rest, line = word ++ ' ' :: rest ∧ ' ' ∉ word ∧ CommandName.Registered word

theorem Text.cut_of_not_mem {word rest : Text} {mark : Char} (h : mark ∉ word) :
    (word ++ mark :: rest).cut (· == mark) = some (word, rest) := by
  have hword : ∀ c ∈ word, (c == mark) = false := by
    intro c hc
    rw [beq_eq_false_iff_ne]
    rintro rfl
    exact h hc
  exact cut_append hword (by simp) rest

/-- The engine leaves exactly these lines alone. -/
theorem isCommandLine_iff {c : CompletionSettings} {s : Session} {d : Disk} {line : Text} :
    (engineFor c s d).isCommandLine line = true ↔ LeadsWithCommand line := by
  unfold Engine.isCommandLine
  constructor
  · intro h
    cases hcut : line.cut (· == ' ') with
    | none => simp [hcut] at h
    | some halves =>
      obtain ⟨word, rest⟩ := halves
      obtain ⟨space, hline, hspace, hword⟩ := Text.cut_eq_some hcut
      obtain rfl : space = ' ' := by simpa using hspace
      rw [hcut] at h
      refine ⟨word, rest, hline, ?_, builtinCommands_any_iff.mp h⟩
      intro hmem
      simpa using hword ' ' hmem
  · rintro ⟨word, rest, rfl, hword, hregistered⟩
    rw [Text.cut_of_not_mem hword]
    exact builtinCommands_any_iff.mpr hregistered

/-! ### An empty line -/

theorem LaidOut.text_ne_nil {before t : Text} {nesting : List Interpolation} {tokens : List Token}
    {ending : Except LexError Token} (h : LaidOut before nesting t tokens ending) :
    ∀ token ∈ tokens, token.text ≠ [] := by
  induction h with
  | token _ _ hsome _ _ _ ih =>
    intro token htoken
    rcases List.mem_cons.mp htoken with rfl | htoken
    · exact hsome
    · exact ih token htoken
  | _ => simp

/-- Below other lines an empty line ends the text with a newline. -/
theorem Text.getLast_below_empty {prior : List Text} (h : prior ≠ []) :
    (Text.below prior []).getLast? = some '\n' := by
  obtain ⟨front, last, rfl⟩ := (List.eq_nil_or_concat prior).resolve_left h
  simp [below]

/-- On an empty line there is nothing at the cursor, whatever stands above it. -/
theorem cursorPlace_empty (prior : List Text) : ∃ reason, cursorPlace prior [] = .unusable reason := by
  cases hplace : cursorPlace prior [] with
  | unusable reason => exact ⟨reason, rfl⟩
  | inString column =>
    obtain ⟨last, hlast, -⟩ := Lexer.emits_run (.new (Text.below prior []))
    obtain ⟨-, e, -, hquote⟩ := (cursorPlace_inString_iff hlast).mp hplace
    have hat := (quoteColumn_eq_some.mp hquote).2
    simp at hat
  | after stream =>
    obtain ⟨front, gap, hsource, -, -, hrow, hmem⟩ := cursorPlace_last hplace
    have hsome : stream.last.text ++ gap ≠ [] := by
      simp [(lexAll_laidOut _).text_ne_nil _ hmem]
    have hnone : '\n' ∉ stream.last.text ++ gap := by
      rw [hsource] at hrow
      simp only [Position.behind, List.count_append] at hrow
      rw [← List.count_eq_zero, List.count_append]
      omega
    by_cases hprior : prior = []
    · subst hprior
      have hempty : front ++ (stream.last.text ++ gap) = [] := hsource.symm
      exact absurd (List.append_eq_nil_iff.mp hempty).2 hsome
    · have hlast := Text.getLast_below_empty hprior
      rw [hsource, List.getLast?_append_of_ne_nil _ hsome] at hlast
      exact absurd (List.mem_of_getLast? hlast) hnone

/-- With nothing before the cursor nothing is completed. -/
theorem Engine.complete_start (e : Engine) (prior : List Text) {line : Text} {cursor : Nat}
    (present : Nat) (h : line.take cursor = []) : e.complete prior line cursor present = .none := by
  unfold Engine.complete
  split
  · rfl
  · obtain ⟨reason, hplace⟩ := cursorPlace_empty prior
    rw [h, hplace]

/-! ### Two lines -/

/-- A completer of file names that looks at what stands before the cursor only. -/
def ReadsToCursor (filenames : FilenameCompleter) : Prop :=
  ∀ (a b : Text) (i j present : Nat), a.take i = b.take j →
    filenames a i present = filenames b j present

theorem readsToCursor_completeFilename (d : Disk) (showHidden : Bool) :
    ReadsToCursor (completeFilename d showHidden) := by
  intro a b i j present h
  unfold completeFilename
  rw [h]

/-- Between the quote and the cursor stands what the text before the cursor has
    behind the quote. -/
theorem Text.take_drop_cursor (t : Text) (cursor start : Nat) :
    (t.drop start).take (min cursor t.length - start) = (t.take cursor).drop start := by
  have htake : t.take (min cursor t.length) = t.take cursor := by
    rw [List.take_eq_take_iff]
    omega
  rw [← List.drop_take, htake]

namespace Engine

variable {e : Engine} {a b : Text} {cursor : Nat}

theorem completeInString_congr (hfiles : ∀ f ∈ e.filenames, ReadsToCursor f)
    (h : a.take cursor = b.take cursor) (quote present : Nat) :
    e.completeInString a quote (min cursor a.length) present =
      e.completeInString b quote (min cursor b.length) present := by
  unfold completeInString
  cases hsome : e.filenames with
  | none => rfl
  | some filenames =>
    have hsame : (a.drop (quote + 1)).take (min cursor a.length - (quote + 1)) =
        (b.drop (quote + 1)).take (min cursor b.length - (quote + 1)) := by
      rw [Text.take_drop_cursor, Text.take_drop_cursor, h]
    dsimp only
    rw [hfiles filenames hsome _ _ _ _ present hsame]

/-- What the place of the cursor calls for. -/
def completeAt (e : Engine) (line : Text) (cursor present : Nat) : CursorPlace → PlacedOffer
  | .after stream => e.completeAfter stream present
  | .inString column => e.completeInString line column (min cursor line.length) present
  | .unusable _ => .none

theorem complete_eq_completeAt {prior : List Text} {line : Text} (present : Nat)
    (hsome : line ≠ []) (hline : e.isCommandLine line = false) :
    e.complete prior line cursor present =
      e.completeAt line cursor present (cursorPlace prior (line.take cursor)) := by
  rw [complete, if_neg (by simp [hsome, hline])]
  cases cursorPlace prior (line.take cursor) <;> rfl

/-- Lines that are the same up to the cursor are completed in the same way. -/
theorem complete_congr (hfiles : ∀ f ∈ e.filenames, ReadsToCursor f)
    (h : a.take cursor = b.take cursor) (ha : e.isCommandLine a = false)
    (hb : e.isCommandLine b = false) (prior : List Text) (present : Nat) :
    e.complete prior a cursor present = e.complete prior b cursor present := by
  by_cases hstart : a.take cursor = []
  · rw [e.complete_start prior present hstart, e.complete_start prior present (h ▸ hstart)]
  · have hsome : a ≠ [] ∧ b ≠ [] := by
      constructor
      · rintro rfl
        simp at hstart
      · rintro rfl
        simp [h] at hstart
    rw [complete_eq_completeAt present hsome.1 ha, complete_eq_completeAt present hsome.2 hb, h]
    cases cursorPlace prior (b.take cursor) with
    | after stream => rfl
    | inString column => exact completeInString_congr hfiles h column present
    | unusable reason => rfl

end Engine

/-- **Text behind the cursor has no say.**  Two lines that are the same up to the
    cursor and do not begin with a command are completed in the same way: at the
    same place, with the same candidates. -/
theorem completion_before_cursor (c : CompletionSettings) (s : Session) (d : Disk) {a b : Text}
    {cursor : Nat} (collected : List Text) (h : a.take cursor = b.take cursor)
    (ha : ¬ LeadsWithCommand a) (hb : ¬ LeadsWithCommand b) :
    (engineFor c s d).completeOnto s.buffer a cursor collected =
      (engineFor c s d).completeOnto s.buffer b cursor collected := by
  have hfiles : ∀ f ∈ (engineFor c s d).filenames, ReadsToCursor f := by
    intro f hf
    simp only [engineFor, Option.mem_def, Option.ite_none_right_eq_some, Option.some.injEq] at hf
    obtain ⟨-, rfl⟩ := hf
    exact readsToCursor_completeFilename d c.showHiddenFiles
  rw [← isCommandLine_iff (c := c) (s := s) (d := d), Bool.not_eq_true] at ha hb
  unfold Engine.completeOnto
  rw [Engine.complete_congr hfiles h ha hb]

/-- In `f('al')` with the cursor behind `al` the file is offered that is offered
    in `f('al`, although the completer is handed the rest of the line as well. -/
theorem completion_before_cursor_quoted :
    let d : Disk := ⟨.dir [("alpha".toList, .file .binary)], [], none⟩
    "f('al')".toList.take 5 = "f('al".toList.take 5 ∧
      ¬ LeadsWithCommand "f('al')".toList ∧ ¬ LeadsWithCommand "f('al".toList ∧
      (engineFor .default .new d).completeOnto [] "f('al')".toList 5 ["kept".toList] =
        (some 3, ["kept".toList, "alpha".toList]) := by
  intro d
  have hsame : "f('al')".toList.take 5 = "f('al".toList.take 5 := by decide
  have hlong : ¬ LeadsWithCommand "f('al')".toList := by
    rw [← isCommandLine_iff (c := .default) (s := .new) (d := d)]
    decide +kernel
  have hshort : (engineFor .default .new d).isCommandLine "f('al".toList = false := by
    decide +kernel
  have hother : ¬ LeadsWithCommand "f('al".toList := by
    rw [← isCommandLine_iff (c := .default) (s := .new) (d := d), hshort]
    simp
  have hplace : cursorPlace [] ("f('al".toList.take 5) = .inString 2 := by decide +kernel
  have hfound : completeFilename d false "al".toList 2 1 = ⟨["alpha".toList], some 0, []⟩ := by cbv
  have hcomplete : (engineFor .default .new d).complete [] "f('al".toList 5 1 =
      ⟨["alpha".toList], some 3, []⟩ := by
    rw [Engine.complete_eq_completeAt 1 (by decide) hshort, hplace]
    change ({ completeFilename d false "al".toList 2 1 with
      place := (completeFilename d false "al".toList 2 1).place.map (3 + ·) } : PlacedOffer) = _
    rw [hfound]
    rfl
  have heq := completion_before_cursor .default .new d ["kept".toList] hsame hlong hother
  refine ⟨hsame, hlong, hother, heq.trans ?_⟩
  change ((Engine.complete _ [] _ 5 1).place, _ ++ (Engine.complete _ [] _ 5 1).candidates) = _
  rw [hcomplete]
  rfl

end GroovyShell
