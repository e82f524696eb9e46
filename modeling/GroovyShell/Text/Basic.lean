/-
  GroovyShell/Text/Basic.lean
  ===========================
  **Program text as a list of characters.**

  Everything the shell reads is a list of Unicode characters, and every cursor,
  column and length counts characters.  This file holds the few operations on
  such text that several parts share: trimming, splitting, lines, and places in
  a text.
-/
import GroovyShell.Text.CharClass

namespace GroovyShell

/-- Program text, a line being typed, a name, a path: characters in order. -/
abbrev Text := List Char

/-- Place in a text by line and column, both counted from one. -/
structure Position where
  line : Nat
  column : Nat
deriving DecidableEq, Repr

def Position.start : Position := ⟨1, 1⟩

/-- Place just after one character that stands at `p`. -/
def Position.step (p : Position) (c : Char) : Position :=
  if c = '\n' then ⟨p.line + 1, 1⟩ else ⟨p.line, p.column + 1⟩

/-- Place just after a text that starts at `p`. -/
def Position.after (p : Position) (t : Text) : Position :=
  t.foldl Position.step p

@[simp] theorem Position.after_append (p : Position) (a b : Text) :
    p.after (a ++ b) = (p.after a).after b :=
  List.foldl_append

namespace Text

/-- The characters of a text as a string, for messages and answers. -/
def string (t : Text) : String := String.ofList t

def trimStart (t : Text) : Text := t.dropWhile isBlank

def trimEnd (t : Text) : Text := (t.reverse.dropWhile isBlank).reverse

def trim (t : Text) : Text := trimEnd (trimStart t)

/-- Whether a text holds nothing but white space. -/
def isBlankOnly (t : Text) : Bool := t.all isBlank

/-- Number of leading characters that satisfy `p`. -/
def run (p : Char → Bool) (t : Text) : Nat := (t.takeWhile p).length

def beginsWith (t head : Text) : Bool := head.isPrefixOf t

def finishesWith (t tail : Text) : Bool := tail.reverse.isPrefixOf t.reverse

/-- What follows `head` at the beginning of `t`, if `t` begins with it. -/
def dropHead? (t head : Text) : Option Text :=
  if t.beginsWith head then some (t.drop head.length) else none

/-- What comes before `tail` at the end of `t`, if `t` ends with it. -/
def dropTail? (t tail : Text) : Option Text :=
  if t.finishesWith tail then some (t.take (t.length - tail.length)) else none

/-- The text before and after the first character that satisfies `p`, which
    itself belongs to neither. -/
def cut (p : Char → Bool) : Text → Option (Text × Text)
  | [] => none
  | c :: t =>
    if p c then some ([], t)
    else (cut p t).map fun (before, after) => (c :: before, after)

/-- The text before and after the first place where `mark` stands. -/
def cutAt (t mark : Text) : Option (Text × Text) :=
  match t with
  | [] => if mark.isEmpty then some ([], []) else none
  | c :: t =>
    if beginsWith (c :: t) mark then some ([], (c :: t).drop mark.length)
    else (cutAt t mark).map fun (before, after) => (c :: before, after)

/-- The parts of a text between the characters equal to `mark`; there is always
    at least one part. -/
def parts (mark : Char) : Text → List Text
  | [] => [[]]
  | c :: t =>
    match parts mark t with
    | [] => [[c]]
    | part :: rest => if c = mark then [] :: part :: rest else (c :: part) :: rest

/-- The part of a text after its last `mark`, or all of it when there is none. -/
def lastPart (mark : Char) (t : Text) : Text :=
  (t.reverse.takeWhile (· != mark)).reverse

/-- A text without its first `n` lines. -/
def dropLines : Nat → Text → Text
  | 0, t => t
  | n + 1, t => dropLines n ((t.dropWhile (· != '\n')).drop 1)

/-- The part of a text from a place on. -/
def startingAt (p : Position) (t : Text) : Text :=
  (t.dropLines (p.line - 1)).drop (p.column - 1)

/-- The text of some lines with a last line below them. -/
def below (lines : List Text) (last : Text) : Text :=
  (lines.map fun line => line ++ ['\n']).flatten ++ last

/-- Several texts with a separator between each two. -/
def joined (mark : Text) : List Text → Text
  | [] => []
  | [t] => t
  | t :: rest => t ++ mark ++ joined mark rest

/-! ### What the operations keep -/

@[simp] theorem isBlankOnly_append (a b : Text) :
    (a ++ b).isBlankOnly = (a.isBlankOnly && b.isBlankOnly) := by
  simp [isBlankOnly]

theorem run_le (p : Char → Bool) (t : Text) : t.run p ≤ t.length :=
  (List.takeWhile_sublist p).length_le

theorem take_run (p : Char → Bool) (t : Text) : t.take (t.run p) = t.takeWhile p := by
  induction t with
  | nil => rfl
  | cons c t ih =>
    simp only [run] at ih ⊢
    cases h : p c <;> simp [h, ih]

theorem drop_run (p : Char → Bool) (t : Text) : t.drop (t.run p) = t.dropWhile p := by
  induction t with
  | nil => rfl
  | cons c t ih =>
    simp only [run] at ih ⊢
    cases h : p c <;> simp [h, ih]

theorem beginsWith_iff {t head : Text} : t.beginsWith head = true ↔ ∃ rest, t = head ++ rest := by
  simp only [beginsWith, List.isPrefixOf_iff_prefix]
  exact ⟨fun ⟨rest, h⟩ => ⟨rest, h.symm⟩, fun ⟨rest, h⟩ => ⟨rest, h.symm⟩⟩

theorem dropHead?_eq_some_iff {t head rest : Text} :
    t.dropHead? head = some rest ↔ t = head ++ rest := by
  unfold dropHead?
  constructor
  · intro h
    split at h
    · rename_i hhead
      obtain ⟨more, rfl⟩ := beginsWith_iff.mp hhead
      rw [List.drop_left, Option.some.injEq] at h
      rw [h]
    · simp at h
  · rintro rfl
    rw [if_pos (beginsWith_iff.mpr ⟨rest, rfl⟩), List.drop_left]

theorem dropHead?_eq_none_iff {t head : Text} : t.dropHead? head = none ↔ ¬ head <+: t := by
  rw [dropHead?, ite_eq_right_iff, beginsWith, List.isPrefixOf_iff_prefix]
  simp

/-- A text is cut at the first character that satisfies `p`, and only that
    character is lost. -/
theorem cut_eq_some {p : Char → Bool} {t before after : Text} (h : t.cut p = some (before, after)) :
    ∃ c, t = before ++ c :: after ∧ p c = true ∧ ∀ b ∈ before, p b = false := by
  induction t generalizing before with
  | nil => simp [cut] at h
  | cons c t ih =>
    unfold cut at h
    split at h
    · rename_i hc
      simp only [Option.some.injEq, Prod.mk.injEq] at h
      obtain ⟨rfl, rfl⟩ := h
      exact ⟨c, rfl, hc, by simp⟩
    · rename_i hc
      obtain ⟨⟨first, rest⟩, hr, he⟩ := Option.map_eq_some_iff.mp h
      simp only [Prod.mk.injEq] at he
      obtain ⟨rfl, rfl⟩ := he
      obtain ⟨d, rfl, hd, all⟩ := ih hr
      exact ⟨d, rfl, hd, by simpa [hc] using all⟩

theorem cut_eq_none_iff {p : Char → Bool} {t : Text} :
    t.cut p = none ↔ ∀ c ∈ t, p c = false := by
  induction t with
  | nil => simp [cut]
  | cons c t ih => cases hc : p c <;> simp [cut, hc, ih]

/-- The first character that satisfies `p` is found behind those that do not. -/
theorem cut_append {p : Char → Bool} {before : Text} (h : ∀ b ∈ before, p b = false) {c : Char}
    (hc : p c = true) (after : Text) : (before ++ c :: after).cut p = some (before, after) := by
  induction before with
  | nil => simp [cut, hc]
  | cons b before ih =>
    have hb : p b = false := h b List.mem_cons_self
    simp [cut, hb, ih fun d hd => h d (List.mem_cons_of_mem b hd)]

theorem parts_ne_nil (mark : Char) (t : Text) : t.parts mark ≠ [] := by
  cases t with
  | nil => simp [parts]
  | cons c t =>
    unfold parts
    split
    · simp
    · split <;> simp

theorem parts_of_not_mem {mark : Char} {t : Text} (h : mark ∉ t) : t.parts mark = [t] := by
  induction t with
  | nil => rfl
  | cons c t ih =>
    simp only [List.mem_cons, not_or] at h
    simp only [parts, ih h.2, if_neg (Ne.symm h.1)]

theorem parts_append_mark (mark : Char) (a b : Text) :
    (a ++ mark :: b).parts mark = a.parts mark ++ b.parts mark := by
  induction a with
  | nil =>
    obtain ⟨part, rest, hb⟩ := List.exists_cons_of_ne_nil (parts_ne_nil mark b)
    simp [parts, hb]
  | cons c a ih =>
    obtain ⟨part, rest, ha⟩ := List.exists_cons_of_ne_nil (parts_ne_nil mark a)
    simp only [List.cons_append, parts, ih, ha]
    split <;> rfl

theorem not_mem_of_mem_parts {mark : Char} {t part : Text} (h : part ∈ t.parts mark) :
    mark ∉ part := by
  induction t generalizing part with
  | nil => simp_all [parts]
  | cons c t ih =>
    unfold parts at h
    split at h
    · rename_i none
      exact absurd none (parts_ne_nil mark t)
    · rename_i first rest some
      rw [some] at ih
      split at h
      · rcases List.mem_cons.mp h with rfl | h
        · simp
        · exact ih h
      · rename_i different
        rcases List.mem_cons.mp h with rfl | h
        · simp only [List.mem_cons, not_or]
          exact ⟨fun e => different e.symm, ih List.mem_cons_self⟩
        · exact ih (List.mem_cons_of_mem _ h)

theorem joined_cons (mark part : Text) {rest : List Text} (h : rest ≠ []) :
    joined mark (part :: rest) = part ++ mark ++ joined mark rest := by
  cases rest with
  | nil => exact absurd rfl h
  | cons => rfl

/-- Nothing is lost by taking a text apart. -/
theorem joined_parts (mark : Char) (t : Text) : joined [mark] (t.parts mark) = t := by
  induction t with
  | nil => rfl
  | cons c t ih =>
    unfold parts
    split
    · rename_i h
      exact absurd h (parts_ne_nil mark t)
    · rename_i part rest h
      rw [h] at ih
      split
      · rename_i hc
        subst hc
        rw [joined_cons _ _ (by simp), ih]
        rfl
      · cases rest with
        | nil => simpa [joined] using ih
        | cons next rest => simpa [joined] using ih

theorem below_append (a b : List Text) (last : Text) :
    below (a ++ b) last = below a (below b last) := by
  simp [below]

end Text

end GroovyShell
