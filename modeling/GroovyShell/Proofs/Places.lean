/-
  GroovyShell/Proofs/Places.lean
  ==============================
  **Places counted from the beginning of a text.**

  The lexer moves a place along the characters it drops.  This file says what
  place that is without any movement: the line counts the newlines before it,
  the column the characters since the last of them.  Read from such a place on,
  a text is what stands behind it.
-/
import GroovyShell.Text.Basic
import Mathlib.Data.List.Infix

namespace GroovyShell

/-! ### The last line of a text -/

namespace Text

@[simp] theorem lastPart_nil (mark : Char) : lastPart mark [] = [] := rfl

theorem lastPart_concat (mark : Char) (t : Text) (c : Char) :
    lastPart mark (t ++ [c]) = if c = mark then [] else lastPart mark t ++ [c] := by
  by_cases h : c = mark <;> simp [lastPart, h]

/-- Text without the mark is added to the last part. -/
theorem lastPart_append (mark : Char) (a : Text) {b : Text} (h : mark ∉ b) :
    lastPart mark (a ++ b) = lastPart mark a ++ b := by
  induction b using List.reverseRecOn with
  | nil => simp
  | append_singleton b c ih =>
    have hb : mark ∉ b := fun hm => h (List.mem_append_left _ hm)
    have hc : c ≠ mark := fun he => h (by simp [he])
    rw [← List.append_assoc, lastPart_concat, if_neg hc, ih hb, List.append_assoc]

theorem lastPart_of_not_mem {mark : Char} {t : Text} (h : mark ∉ t) : lastPart mark t = t := by
  simpa using lastPart_append mark [] h

/-- Behind a mark the last part begins anew. -/
theorem lastPart_append_mark (mark : Char) (a b : Text) :
    lastPart mark (a ++ mark :: b) = lastPart mark b := by
  induction b using List.reverseRecOn with
  | nil => simp [lastPart_concat]
  | append_singleton b c ih =>
    rw [← List.cons_append, ← List.append_assoc, lastPart_concat, lastPart_concat, ih]

/-- Dropping as many lines as a text has newlines leaves its last line. -/
theorem dropLines_count (before rest : Text) :
    dropLines (before.count '\n') (before ++ rest) = before.lastPart '\n' ++ rest := by
  by_cases h : '\n' ∈ before
  · obtain ⟨line, below, hb, hline⟩ := List.eq_append_cons_of_mem h
    have hall : ∀ c ∈ line, (c != '\n') = true := by
      intro c hc
      simpa using fun he : c = '\n' => hline (he ▸ hc)
    have hcount : before.count '\n' = below.count '\n' + 1 := by
      simp [hb, List.count_eq_zero.mpr hline]
    have hshort : below.length < before.length := by simp [hb]; omega
    rw [hcount, dropLines, hb, lastPart_append_mark, List.append_assoc,
      List.dropWhile_append_of_pos hall]
    simpa using dropLines_count below rest
  · rw [List.count_eq_zero.mpr h, lastPart_of_not_mem h, dropLines]
termination_by before.length

end Text

/-! ### Places -/

/-- The place just behind a text that begins a source. -/
def Position.behind (before : Text) : Position :=
  ⟨1 + before.count '\n', 1 + (before.lastPart '\n').length⟩

@[simp] theorem Position.behind_nil : Position.behind [] = .start := rfl

theorem Position.behind_concat (before : Text) (c : Char) :
    Position.behind (before ++ [c]) = (Position.behind before).step c := by
  by_cases h : c = '\n'
  · subst h
    simp [behind, step, Text.lastPart_concat, Nat.add_comm, Nat.add_left_comm]
  · simp [behind, step, Text.lastPart_concat, h, Nat.add_assoc]

/-- Moving a place along a text counts its lines and columns. -/
theorem Position.behind_append (before t : Text) :
    Position.behind (before ++ t) = (Position.behind before).after t := by
  induction t using List.reverseRecOn with
  | nil => simp [after]
  | append_singleton t c ih =>
    rw [← List.append_assoc, behind_concat, ih, after_append]
    rfl

/-- Text without a newline keeps the line. -/
theorem Position.after_line {t : Text} (h : '\n' ∉ t) (p : Position) :
    (p.after t).line = p.line := by
  induction t generalizing p with
  | nil => rfl
  | cons c t ih =>
    simp only [List.mem_cons, not_or] at h
    have hstep : (p.step c).line = p.line := by
      rw [step, if_neg (fun he => h.1 he.symm)]
    rw [← hstep]
    exact ih h.2 (p.step c)

/-- What stands behind a place is what the text reads from there on. -/
theorem Text.startingAt_behind (before rest : Text) :
    (before ++ rest).startingAt (Position.behind before) = rest := by
  rw [startingAt, Position.behind, Nat.add_sub_cancel_left, Nat.add_sub_cancel_left,
    dropLines_count, List.drop_left]

end GroovyShell
