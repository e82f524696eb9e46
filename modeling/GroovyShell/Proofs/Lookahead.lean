/-
  GroovyShell/Proofs/Lookahead.lean
  =================================
  **How far a token depends on what follows it.**

  To find the end of a token the lexer looks behind it, at three characters at
  the most, and never past white space: `1e+` is a number and two more tokens,
  but with a digit behind it is one number.  `Text.glance` is that part of what
  follows.  With the same glance behind it a token is the same, and with less to
  be seen it is still the same, for what is seen could only have made it longer
  (`itemAt_of_glance`).

  Numbers are put together from several lengths, so they are handled by a
  property that such lengths keep when they are joined (`Settled`).
-/
import GroovyShell.Proofs.GapText
import GroovyShell.Proofs.Items

namespace GroovyShell

/-! ### Classes without white space -/

/-- No white space is of this class. -/
def Solid (p : Char → Bool) : Prop := ∀ c, isBlank c = true → p c = false

theorem inRanges_disjoint {r s : List (Nat × Nat)} {c : Char}
    (h : ∀ a ∈ r, ∀ b ∈ s, a.2 < b.1 ∨ b.2 < a.1) (hc : inRanges r c = true) :
    inRanges s c = false := by
  obtain ⟨a, ha, hca⟩ := List.any_eq_true.mp hc
  apply List.any_eq_false.mpr
  intro b hb hcb
  have hab := h a ha b hb
  simp only [Bool.and_eq_true, decide_eq_true_eq] at hca hcb
  omega

/-- Among the ASCII characters the letters are the usual ones. -/
theorem isLetter_ascii {c : Char} (h : c.toNat < 0x80) :
    isLetter c = true ↔ (65 ≤ c.toNat ∧ c.toNat ≤ 90) ∨ (97 ≤ c.toNat ∧ c.toNat ≤ 122) := by
  rw [isLetter, if_pos h]
  delta Char.isAlpha Char.isUpper Char.isLower
  simp [UInt32.le_iff_toNat_le]

namespace Solid

theorem beq {d : Char} (hd : isBlank d = false) : Solid (· == d) := by
  intro c hc
  rw [beq_eq_false_iff_ne]
  rintro rfl
  simp [hc] at hd

theorem or {p q : Char → Bool} (hp : Solid p) (hq : Solid q) : Solid fun c => p c || q c := by
  intro c hc
  simp only [hp c hc, hq c hc, Bool.or_self]

theorem isDigit : Solid Char.isDigit := by
  intro c hc
  simp [isBlank, inRanges] at hc
  simp [Char.isDigit, UInt32.le_iff_toNat_le]
  omega

theorem isLetter : Solid GroovyShell.isLetter := by
  intro c hc
  by_cases hascii : c.toNat < 0x80
  · simp [isBlank, inRanges] at hc
    rw [← Bool.not_eq_true, isLetter_ascii hascii]
    omega
  · rw [GroovyShell.isLetter, if_neg hascii]
    exact inRanges_disjoint (by decide +kernel) hc

theorem isNumeral : Solid GroovyShell.isNumeral := by
  intro c hc
  unfold GroovyShell.isNumeral
  split
  · exact isDigit c hc
  · exact inRanges_disjoint (by decide +kernel) hc

theorem continuesName : Solid GroovyShell.continuesName :=
  ((isLetter.or isNumeral).or (beq (by decide))).or (beq (by decide))

theorem isDigitPart : Solid GroovyShell.isDigitPart := isDigit.or (beq (by decide))

theorem isHexPart : Solid fun c => isHexDigit c || c == '_' := by
  apply Solid.or _ (beq (by decide))
  intro c hc
  simp [isBlank, inRanges] at hc
  simp [isHexDigit, Char.isDigit, UInt32.le_iff_toNat_le, Char.le_def]
  omega

end Solid

/-! ### A glance at what follows -/

/-- What may be looked at behind a token to find its end: three characters, and
    none from the first white space on. -/
def Text.glance (t : Text) : Text := (t.takeWhile fun c => !isBlank c).take 3

namespace Text

@[simp] theorem glance_nil : glance [] = [] := rfl

theorem glance_blank {c : Char} (h : isBlank c = true) (t : Text) : glance (c :: t) = [] := by
  simp [glance, h]

/-- White space hides what follows it. -/
theorem glance_append_blank (t : Text) {c : Char} (h : isBlank c = true) (u : Text) :
    glance (t ++ c :: u) = glance t := by
  have hsolid :
      (t ++ c :: u).takeWhile (fun c => !isBlank c) = t.takeWhile fun c => !isBlank c := by
    induction t with
    | nil => simp [h]
    | cons d t ih => rw [List.cons_append, List.takeWhile_cons, List.takeWhile_cons, ih]
  rw [glance, hsolid, glance]

theorem glance_append_of_length {t : Text} (h : 3 ≤ t.length) (u : Text) :
    glance (t ++ u) = glance t := by
  rcases t with _ | ⟨a, _ | ⟨b, _ | ⟨c, t⟩⟩⟩
  · simp at h
  · simp at h
  · simp at h
  · simp only [glance, List.cons_append, List.takeWhile_cons]
    cases isBlank a <;> cases isBlank b <;> cases isBlank c <;> rfl

theorem glance_isPrefix (t : Text) : t.glance <+: t :=
  (List.take_prefix _ _).trans (List.takeWhile_prefix _)

theorem prefix_glance {mark t : Text} (h : mark <+: t) (hsolid : ∀ c ∈ mark, isBlank c = false)
    (hlength : mark.length ≤ 3) : mark <+: t.glance := by
  obtain ⟨u, rfl⟩ := h
  unfold glance
  rw [List.prefix_take_iff]
  refine ⟨?_, hlength⟩
  rw [List.takeWhile_append_of_pos (by simpa using hsolid)]
  exact List.prefix_append _ _

/-- A text that goes on shows no less. -/
theorem glance_mono {t u : Text} (h : t <+: u) : t.glance <+: u.glance := by
  apply prefix_glance ((glance_isPrefix t).trans h)
  · intro c hc
    have hsolid := List.all_eq_true.mp List.all_takeWhile c (List.mem_of_mem_take hc)
    simpa using hsolid
  · exact List.length_take_le _ _

/-- A mark that stands at `token` with little to be seen behind it stands there
    all the more with more to be seen. -/
theorem beginsWith_of_glance {token rest other mark : Text} (hglance : other.glance <+: rest.glance)
    (hsolid : ∀ c ∈ mark, isBlank c = false) (hlength : mark.length ≤ token.length + 3)
    (h : beginsWith (token ++ other) mark = true) : beginsWith (token ++ rest) mark = true := by
  simp only [beginsWith, List.isPrefixOf_iff_prefix] at h ⊢
  rcases List.prefix_or_prefix_of_prefix h (List.prefix_append token other) with hshort | hlong
  · exact hshort.trans (List.prefix_append _ _)
  · obtain ⟨tail, rfl⟩ := hlong
    rw [List.prefix_append_right_inj] at h ⊢
    have htail : ∀ c ∈ tail, isBlank c = false := fun c hc => hsolid c (List.mem_append_right _ hc)
    rw [List.length_append] at hlength
    exact ((prefix_glance h htail (by omega)).trans hglance).trans (glance_isPrefix rest)

theorem head_of_glance {rest other : Text} (hglance : other.glance <+: rest.glance) {c : Char}
    (hc : c ∈ other.head?) (hsolid : isBlank c = false) : c ∈ rest.head? := by
  obtain ⟨t, rfl⟩ := List.head?_eq_some_iff.mp hc
  have hmark : beginsWith ([] ++ rest) [c] = true :=
    beginsWith_of_glance hglance (by simpa using hsolid) (by simp) (by simp [beginsWith])
  obtain ⟨u, hu⟩ := beginsWith_iff.mp hmark
  simp only [List.nil_append] at hu
  simp [hu]

/-- Whether the characters at the head of a text are of these classes, one after
    the other. -/
def showsAt : List (Char → Bool) → Text → Bool
  | [], _ => true
  | _, [] => false
  | p :: ps, c :: t => p c && showsAt ps t

theorem showsAt_append {classes : List (Char → Bool)} {token : Text}
    (h : classes.length ≤ token.length) (a b : Text) :
    showsAt classes (token ++ a) = showsAt classes (token ++ b) := by
  induction classes generalizing token with
  | nil => simp [showsAt]
  | cons p ps ih =>
    rcases token with _ | ⟨c, token⟩
    · simp at h
    · simp only [List.cons_append, showsAt]
      rw [ih (by simpa using h)]

/-- The characters shown, whatever follows them. -/
theorem showsAt_mark {classes : List (Char → Bool)} {t : Text} (h : showsAt classes t = true) :
    ∃ mark, mark <+: t ∧ mark.length = classes.length ∧ (∀ c ∈ mark, ∃ p ∈ classes, p c = true) ∧
      ∀ rest, showsAt classes (mark ++ rest) = true := by
  induction classes generalizing t with
  | nil => exact ⟨[], by simp, rfl, by simp, by simp [showsAt]⟩
  | cons p ps ih =>
    rcases t with _ | ⟨c, t⟩
    · simp [showsAt] at h
    · simp only [showsAt, Bool.and_eq_true] at h
      obtain ⟨hc, ht⟩ := h
      obtain ⟨mark, hmark, hlength, hclasses, hall⟩ := ih ht
      refine ⟨c :: mark, by simpa using hmark, by simp [hlength], ?_, ?_⟩
      · intro d hd
        rcases List.mem_cons.mp hd with rfl | hd
        · exact ⟨p, List.mem_cons_self, hc⟩
        · obtain ⟨q, hq, hqd⟩ := hclasses d hd
          exact ⟨q, List.mem_cons_of_mem p hq, hqd⟩
      · intro rest
        simp [showsAt, hc, hall rest]

/-- Classes shown with little to be seen are shown all the more with more. -/
theorem showsAt_of_glance {classes : List (Char → Bool)} {token rest other : Text}
    (hsolid : ∀ p ∈ classes, Solid p) (hwidth : classes.length ≤ token.length + 3)
    (hglance : other.glance <+: rest.glance) (h : showsAt classes (token ++ other) = true) :
    showsAt classes (token ++ rest) = true := by
  obtain ⟨mark, hmark, hlength, hclasses, hall⟩ := showsAt_mark h
  have hmarkSolid : ∀ c ∈ mark, isBlank c = false := by
    intro c hc
    obtain ⟨p, hp, hpc⟩ := hclasses c hc
    by_contra hblank
    rw [hsolid p hp c (by simpa using hblank)] at hpc
    simp at hpc
  have hbegins : beginsWith (token ++ rest) mark = true :=
    beginsWith_of_glance hglance hmarkSolid (by omega)
      (by rwa [beginsWith, List.isPrefixOf_iff_prefix])
  obtain ⟨u, hu⟩ := beginsWith_iff.mp hbegins
  rw [hu]
  exact hall u

/-- Behind some classes a run begins with a character of the next one. -/
theorem run_pos_of_showsAt (classes : List (Char → Bool)) {p q : Char → Bool} {t : Text}
    (hp : ∀ c, q c = true → p c = true) (h : showsAt (classes ++ [q]) t = true) :
    0 < run p (t.drop classes.length) := by
  induction classes generalizing t with
  | nil =>
    rcases t with _ | ⟨c, t⟩
    · simp [showsAt] at h
    · have hc : q c = true := by simpa [showsAt] using h
      simp [run, hp c hc]
  | cons r rs ih =>
    rcases t with _ | ⟨c, t⟩
    · simp [showsAt] at h
    · simp only [List.cons_append, showsAt, Bool.and_eq_true] at h
      exact ih h.2

end Text

/-! ### Lengths that are settled by a glance -/

/-- `Settled f`: the length that `f` finds at the head of a text is within the
    text, and it stays the same when less is seen behind it. -/
structure Settled (f : Text → Nat) : Prop where
  le_length : ∀ t, f t ≤ t.length
  same : ∀ {token rest other : Text}, other.glance <+: rest.glance →
    f (token ++ rest) ≤ token.length → f (token ++ other) = f (token ++ rest)

namespace Settled

theorem zero : Settled fun _ => 0 where
  le_length _ := Nat.zero_le _
  same _ _ := rfl

theorem run {p : Char → Bool} (hp : Solid p) : Settled (Text.run p) where
  le_length := Text.run_le p
  same {token rest other} hglance h := by
    induction token with
    | nil =>
      have hrest : ∀ c ∈ rest.head?, p c = false := by
        intro c hc
        obtain ⟨t, rfl⟩ := List.head?_eq_some_iff.mp hc
        by_contra hpc
        rw [Bool.not_eq_false] at hpc
        simp [Text.run, hpc] at h
      have hother : ∀ c ∈ other.head?, p c = false := by
        intro c hc
        cases hblank : isBlank c with
        | true => exact hp c hblank
        | false => exact hrest c (Text.head_of_glance hglance hc hblank)
      have hnone : ∀ t : Text, (∀ c ∈ t.head?, p c = false) → Text.run p t = 0 := by
        rintro (_ | ⟨c, t⟩) ht
        · rfl
        · simp [Text.run, ht c rfl]
      rw [List.nil_append, List.nil_append, hnone rest hrest, hnone other hother]
    | cons c token ih =>
      cases hc : p c with
      | false => simp [Text.run, hc]
      | true =>
        simp only [Text.run, List.cons_append, List.takeWhile_cons, hc, if_true,
          List.length_cons] at h ih ⊢
        rw [ih (by omega)]

/-- One length behind the other. -/
theorem andThen {f g : Text → Nat} (hf : Settled f) (hg : Settled g) :
    Settled fun t => f t + g (t.drop (f t)) where
  le_length t := by
    have hhead := hf.le_length t
    have htail := hg.le_length (t.drop (f t))
    rw [List.length_drop] at htail
    omega
  same {token rest other} hglance h := by
    have hhead : f (token ++ other) = f (token ++ rest) := hf.same hglance (by omega)
    have hfits : f (token ++ rest) ≤ token.length := by omega
    simp only [hhead, List.drop_append_of_le_length hfits] at h ⊢
    rw [hg.same hglance]
    rw [List.length_drop]
    omega

/-- A length that is taken only behind characters of some classes, and that
    covers them. -/
theorem marked {classes : List (Char → Bool)} {n : Nat} {f g : Text → Nat}
    (hsolid : ∀ p ∈ classes, Solid p) (hwidth : classes.length ≤ 3) (hn : n ≤ classes.length)
    (hf : Settled f) (hg : Settled g)
    (hcovers : ∀ t, Text.showsAt classes t = true → classes.length ≤ n + f (t.drop n)) :
    Settled fun t => if Text.showsAt classes t then n + f (t.drop n) else g t where
  le_length t := by
    split
    · rename_i hshows
      obtain ⟨mark, hmark, hlength, -, -⟩ := Text.showsAt_mark hshows
      have htail := hf.le_length (t.drop n)
      have hmarkLength := hmark.length_le
      rw [List.length_drop] at htail
      omega
    · exact hg.le_length t
  same {token rest other} hglance h := by
    cases hshows : Text.showsAt classes (token ++ rest) with
    | true =>
      simp only [hshows, if_true] at h
      have hcovered := hcovers _ hshows
      have hother : Text.showsAt classes (token ++ other) = true := by
        rw [Text.showsAt_append (by omega) other rest, hshows]
      have hfits : n ≤ token.length := by omega
      simp only [hother, if_true, List.drop_append_of_le_length hfits] at h ⊢
      rw [hf.same hglance]
      rw [List.length_drop]
      omega
    | false =>
      simp only [hshows, if_false, Bool.false_eq_true] at h
      have hother : ¬ Text.showsAt classes (token ++ other) = true := by
        intro hother
        rw [Text.showsAt_of_glance hsolid (by omega) hglance hother] at hshows
        simp at hshows
      rw [if_neg hother, if_neg (by simp), hg.same hglance h]

end Settled

/-! ### Numbers -/

def isExponentMark (c : Char) : Bool := c == 'e' || c == 'E'

def isSign (c : Char) : Bool := c == '+' || c == '-'

def isHexMark (c : Char) : Bool := c == 'x' || c == 'X'

def isSuffix (c : Char) : Bool := c ∈ ['g', 'G', 'l', 'L', 'i', 'I', 'd', 'D', 'f', 'F']

theorem fractionLength_eq (t : Text) :
    fractionLength t =
      if t.showsAt [(· == '.'), Char.isDigit] then 1 + Text.run isDigitPart (t.drop 1) else 0 := by
  unfold fractionLength
  split
  · simp [Text.showsAt]
  · rename_i hnot
    rcases t with _ | ⟨a, _ | ⟨b, t⟩⟩
    · rfl
    · simp [Text.showsAt]
    · have ha : a ≠ '.' := fun ha => hnot b t (by rw [ha])
      simp [Text.showsAt, ha]

theorem exponentLength_eq (t : Text) :
    exponentLength t =
      if t.showsAt [isExponentMark, isSign, Char.isDigit] then
        2 + Text.run isDigitPart (t.drop 2)
      else if t.showsAt [isExponentMark, Char.isDigit] then
        1 + Text.run isDigitPart (t.drop 1)
      else 0 := by
  rcases t with _ | ⟨e, _ | ⟨d, _ | ⟨s, t⟩⟩⟩
  · rfl
  · simp [exponentLength, Text.showsAt]
  · cases he : isExponentMark e <;> cases hd : d.isDigit <;>
      simp_all [exponentLength, Text.showsAt, isExponentMark, Text.run, isDigitPart]
  · cases hs : isSign d with
    | false => simp_all [exponentLength, Text.showsAt, isExponentMark, isSign, ite_and]
    | true =>
      have hd : d.isDigit = false := by
        rcases (by simpa [isSign] using hs : d = '+' ∨ d = '-') with rfl | rfl <;> decide
      simp_all [exponentLength, Text.showsAt, isExponentMark, isSign, ite_and]

theorem suffixLength_eq (t : Text) :
    suffixLength t = if t.showsAt [isSuffix] then 1 + (fun _ => 0) (t.drop 1) else 0 := by
  cases t with
  | nil => rfl
  | cons c t => simp [suffixLength, Text.showsAt, isSuffix]

/-- Length of the digits of a number after its first digit, which is `d`. -/
def digitsLength (d : Char) (t : Text) : Nat :=
  if d = '0' then
    if t.showsAt [isHexMark] then 1 + Text.run (fun c => isHexDigit c || c == '_') (t.drop 1)
    else decimalTailLength t
  else decimalTailLength t

theorem numberTailLength_eq (d : Char) (t : Text) :
    numberTailLength d t = digitsLength d t + suffixLength (t.drop (digitsLength d t)) := by
  rcases t with _ | ⟨x, t⟩
  · simp [numberTailLength, digitsLength, Text.showsAt, decimalTailLength, Text.run,
      fractionLength, exponentLength]
  · have hdigits : digitsLength d (x :: t) =
        if d = '0' ∧ (x = 'x' ∨ x = 'X') then 1 + Text.run (fun c => isHexDigit c || c == '_') t
        else decimalTailLength (x :: t) := by
      simp [digitsLength, Text.showsAt, isHexMark, ite_and]
    rw [hdigits]
    rfl

namespace Settled

theorem digits : Settled (Text.run isDigitPart) := run .isDigitPart

/-- Digits behind characters of some classes, taken when a digit follows these. -/
theorem markedDigits (classes : List (Char → Bool)) {g : Text → Nat}
    (hsolid : ∀ p ∈ classes, Solid p) (hwidth : classes.length ≤ 2) (hg : Settled g) :
    Settled fun t =>
      if Text.showsAt (classes ++ [Char.isDigit]) t then
        classes.length + Text.run isDigitPart (t.drop classes.length)
      else g t := by
  apply marked _ _ _ digits hg
  · intro t ht
    have hpart : ∀ c : Char, c.isDigit = true → isDigitPart c = true := by
      intro c hc
      simp [isDigitPart, hc]
    have hpos := Text.run_pos_of_showsAt classes hpart ht
    rw [List.length_append, List.length_singleton]
    omega
  · intro p hp
    rcases List.mem_append.mp hp with hp | hp
    · exact hsolid p hp
    · obtain rfl := List.mem_singleton.mp hp
      exact .isDigit
  · rw [List.length_append, List.length_singleton]
    omega
  · rw [List.length_append, List.length_singleton]
    omega

theorem fraction : Settled fractionLength := by
  rw [funext fractionLength_eq]
  apply markedDigits [(· == '.')] _ (by decide) zero
  intro p hp
  obtain rfl := List.mem_singleton.mp hp
  exact .beq (by decide)

theorem exponent : Settled exponentLength := by
  have hmark : Solid isExponentMark := .or (.beq (by decide)) (.beq (by decide))
  have hsign : Solid isSign := .or (.beq (by decide)) (.beq (by decide))
  have hunsigned : Settled fun t =>
      if Text.showsAt [isExponentMark, Char.isDigit] t then
        1 + Text.run isDigitPart (t.drop 1)
      else 0 := by
    apply markedDigits [isExponentMark] _ (by decide) zero
    intro p hp
    obtain rfl := List.mem_singleton.mp hp
    exact hmark
  rw [funext exponentLength_eq]
  apply markedDigits [isExponentMark, isSign] _ (by decide) hunsigned
  intro p hp
  rcases List.mem_cons.mp hp with rfl | hp
  · exact hmark
  · obtain rfl := List.mem_singleton.mp hp
    exact hsign

theorem suffix : Settled suffixLength := by
  rw [funext suffixLength_eq]
  apply marked _ (by decide) (by decide) zero zero
  · intro t _
    simp
  · intro p hp c hc
    obtain rfl := List.mem_singleton.mp hp
    simp only [isSuffix, decide_eq_false_iff_not]
    intro hmem
    have hnone : ['g', 'G', 'l', 'L', 'i', 'I', 'd', 'D', 'f', 'F'].any isBlank = false := by
      decide
    exact List.any_eq_false.mp hnone c hmem hc

theorem decimalTail : Settled decimalTailLength := (digits.andThen fraction).andThen exponent

theorem numberDigits (d : Char) : Settled (digitsLength d) := by
  unfold digitsLength
  by_cases hd : d = '0'
  · simp only [hd, if_true]
    apply marked _ (by decide) (by decide) (run .isHexPart) decimalTail
    · intro t _
      simp
    · intro p hp
      obtain rfl := List.mem_singleton.mp hp
      exact .or (.beq (by decide)) (.beq (by decide))
  · simp only [hd, if_false]
    exact decimalTail

theorem numberTail (d : Char) : Settled (numberTailLength d) := by
  rw [funext (numberTailLength_eq d)]
  exact (numberDigits d).andThen suffix

end Settled

end GroovyShell
