/-
  GroovyShell/Proofs/WrittenStrings.lean
  ======================================
  **Strings are read back as they were written.**

  Whatever characters a string holds, the reader finds it again behind the quotes it
  was written with.  A character stands for itself or is written by an escape, and is
  read on its own (`ReadsAs`).  Quotes are the exception: in a block up to two of them
  stand as they are, and where they come last they touch the three that close it.  So
  the induction over a block asks first whether only such quotes are left.
-/
import GroovyShell.Config.Reader
import GroovyShell.Config.Writer
import Mathlib.Tactic.SplitIfs

namespace GroovyShell

/-! ### Characters -/

theorem isForbidden_eq (c : Char) : isForbidden c = (needsEscape c || c == '\n') := by
  by_cases hc : c = '\n'
  · subst hc
    rfl
  · have hother : (c == '\n') = false := by simpa using hc
    simp [isForbidden, needsEscape, hother, bne]

theorem dropLineBreak_eq_none {c : Char} (h : c ≠ '\n' ∧ c ≠ '\r') (t : Text) :
    dropLineBreak (c :: t) = none := by
  simp [dropLineBreak, h.1, h.2]

theorem ne_lineBreak_of_allowed {c : Char} (h : isForbidden c = false) : c ≠ '\n' ∧ c ≠ '\r' := by
  constructor <;>
  · rintro rfl
    exact absurd h (by decide)

/-- The numbers of all characters that need an escape are small enough to be tried. -/
theorem hexCharacter_numberEscape {c : Char} (hc : needsEscape c = true) (t : Text) :
    hexCharacter 4 ((numberEscape c).drop 2 ++ t) = some c := by
  have hall : ∀ n < 128, hexCharacter 4 ((numberEscape (Char.ofNat n)).drop 2) =
      some (Char.ofNat n) := by decide +kernel
  have hsmall : c.toNat < 128 := by
    simp only [needsEscape, Bool.or_eq_true, Bool.and_eq_true, decide_eq_true_eq, beq_iff_eq] at hc
    omega
  have halone := hall c.toNat hsmall
  rw [Char.ofNat_toNat] at halone
  exact halone

/-- `ReadsAs block c t`: in a string with escapes the text `t` stands for `c`. -/
inductive ReadsAs (block : Bool) (c : Char) : Text → Prop
  | itself : c ≠ '\\' → (isForbidden c = false ∨ block = true ∧ c = '\n') → ReadsAs block c [c]
  | escape {e : Text} : (∀ t, dropLineBreak ((e ++ t).dropWhile isSpace) = none) →
      (∀ t, escaped (e ++ t) = some (c, e.length)) → ReadsAs block c ('\\' :: e)

/-- Every character is written by a text that stands for it. -/
theorem escapedChar_readsAs (block : Bool) (c : Char) : ReadsAs block c (escapedChar block c) := by
  unfold escapedChar
  split_ifs with hslash hback htab hnewline hblock hfeed hreturn hneeds
  · subst hslash
    exact .escape (e := ['\\']) (fun _ => rfl) fun _ => rfl
  · subst hback
    exact .escape (e := ['b']) (fun _ => rfl) fun _ => rfl
  · subst htab
    exact .escape (e := ['t']) (fun _ => rfl) fun _ => rfl
  · subst hnewline
    exact .itself hslash (.inr ⟨hblock, rfl⟩)
  · subst hnewline
    exact .escape (e := ['n']) (fun _ => rfl) fun _ => rfl
  · subst hfeed
    exact .escape (e := ['f']) (fun _ => rfl) fun _ => rfl
  · subst hreturn
    exact .escape (e := ['r']) (fun _ => rfl) fun _ => rfl
  · refine .escape (fun _ => rfl) fun t => ?_
    have hread := hexCharacter_numberEscape hneeds t
    simp only [numberEscape, List.drop_succ_cons, List.drop_zero, List.cons_append,
      List.nil_append] at hread
    simp [escaped, hread]
  · refine .itself hslash (.inl ?_)
    rw [isForbidden_eq]
    simpa using ⟨by simpa using hneeds, hnewline⟩

/-- What stands for a character begins with it or with a backslash. -/
theorem ReadsAs.eq_cons {block : Bool} {c : Char} {t : Text} (h : ReadsAs block c t) :
    ∃ d more, t = d :: more ∧
      (d = c ∧ (isForbidden c = false ∨ block = true ∧ c = '\n') ∨ d = '\\') := by
  cases h with
  | itself _ hallowed => exact ⟨c, [], rfl, .inl ⟨rfl, hallowed⟩⟩
  | @escape e _ _ => exact ⟨'\\', e, rfl, .inr rfl⟩

/-! ### Strings in one line -/

variable {quote : Char} {read rest : Text} {fuel : Nat}

theorem lineString_plain {c : Char} (hquote : c ≠ quote) (hslash : c ≠ '\\' ∨ quote ≠ '"')
    (hallowed : isForbidden c = false) (t : Text) :
    lineString quote (fuel + 1) read (c :: t) = lineString quote fuel (c :: read) t := by
  have hescape : ¬ (c = '\\' ∧ quote = '"') := fun h =>
    hslash.elim (fun hc => hc h.1) fun hq => hq h.2
  rw [lineString, if_neg hquote, if_neg hescape, hallowed]
  rfl

theorem lineString_escape {c : Char} {e t : Text}
    (hescaped : escaped (e ++ t) = some (c, e.length)) :
    lineString '"' (fuel + 1) read ('\\' :: (e ++ t)) = lineString '"' fuel (c :: read) t := by
  rw [lineString, if_neg (by decide), if_pos ⟨rfl, rfl⟩, hescaped]
  simp

theorem lineString_close :
    lineString quote (fuel + 1) read (quote :: rest) = some (read.reverse, rest) := by
  rw [lineString, if_pos rfl]

/-- A string without escapes holds what is written. -/
theorem lineString_literal {t : Text} (hplain : ∀ c ∈ t, c ≠ quote ∧ isForbidden c = false)
    (hquote : quote ≠ '"') (hfuel : t.length < fuel) :
    lineString quote fuel read (t ++ quote :: rest) = some (read.reverse ++ t, rest) := by
  induction t generalizing read fuel with
  | nil =>
    obtain ⟨fuel, rfl⟩ := Nat.exists_eq_succ_of_ne_zero (Nat.ne_zero_of_lt hfuel)
    simpa using lineString_close
  | cons c t ih =>
    obtain ⟨fuel, rfl⟩ := Nat.exists_eq_succ_of_ne_zero (Nat.ne_zero_of_lt hfuel)
    obtain ⟨hc, hallowed⟩ := hplain c List.mem_cons_self
    have hrest := fun d hd => hplain d (List.mem_cons_of_mem c hd)
    rw [List.cons_append, Nat.succ_eq_add_one, lineString_plain hc (.inr hquote) hallowed,
      ih hrest (Nat.lt_of_succ_lt_succ hfuel)]
    simp

/-- A character is read from the text that stands for it. -/
theorem lineString_readsAs {c : Char} {written : Text} (h : ReadsAs false c written)
    (hquote : c ≠ '"') (t : Text) :
    lineString '"' (fuel + 1) read (written ++ t) = lineString '"' fuel (c :: read) t := by
  cases h with
  | itself hslash hallowed =>
    exact lineString_plain hquote (.inl hslash) (by simpa using hallowed) t
  | escape _ hescaped => exact lineString_escape (hescaped t)

/-- In one line every quote is escaped, so that the first one ends the string. -/
theorem lineString_escaped (t : Text) (hfuel : (escapedContent false 0 t).length < fuel) :
    lineString '"' fuel read (escapedContent false 0 t ++ '"' :: rest) =
      some (read.reverse ++ t, rest) := by
  induction t generalizing read fuel with
  | nil =>
    obtain ⟨fuel, rfl⟩ := Nat.exists_eq_succ_of_ne_zero (Nat.ne_zero_of_lt hfuel)
    simpa [escapedContent] using lineString_close
  | cons c t ih =>
    obtain ⟨fuel, rfl⟩ := Nat.exists_eq_succ_of_ne_zero (Nat.ne_zero_of_lt hfuel)
    -- whatever is written for the character takes one step to read
    have hstep : ∃ written, 0 < written.length ∧
        escapedContent false 0 (c :: t) = written ++ escapedContent false 0 t ∧
        ∀ t, lineString '"' (fuel + 1) read (written ++ t) = lineString '"' fuel (c :: read) t := by
      by_cases hquote : c = '"'
      · subst hquote
        exact ⟨['\\', '"'], by simp, rfl, fun t => lineString_escape (e := ['"']) rfl⟩
      · have hread := escapedChar_readsAs false c
        have hsome : 0 < (escapedChar false c).length := by
          obtain ⟨d, more, hcons, -⟩ := hread.eq_cons
          simp [hcons]
        exact ⟨escapedChar false c, hsome, by simp [escapedContent, hquote],
          lineString_readsAs hread hquote⟩
    obtain ⟨written, hsome, hcontent, hread⟩ := hstep
    rw [hcontent, List.length_append] at hfuel
    rw [hcontent, List.append_assoc, Nat.succ_eq_add_one, hread, ih (by omega)]
    simp

/-! ### Strings over several lines -/

/-- How many quotes a text begins with. -/
abbrev quotesAhead (quote : Char) (t : Text) : Nat := t.run (· == quote)

theorem quotesAhead_cons_of_ne {c : Char} (h : c ≠ quote) (t : Text) :
    quotesAhead quote (c :: t) = 0 := by
  simp [quotesAhead, Text.run, h]

theorem quotesAhead_cons (t : Text) : quotesAhead quote (quote :: t) = quotesAhead quote t + 1 := by
  simp [quotesAhead, Text.run]

theorem quotesAhead_replicate (n : Nat) (hrest : ∀ c ∈ rest.head?, c ≠ quote) :
    quotesAhead quote (List.replicate n quote ++ rest) = n := by
  induction n with
  | zero =>
    cases rest with
    | nil => rfl
    | cons c rest => exact quotesAhead_cons_of_ne (hrest c rfl) rest
  | succ n ih => rw [List.replicate_succ, List.cons_append, quotesAhead_cons, ih]

/-- The three quotes that close a block, with those directly before them that belong to
    its content. -/
theorem blockString_close {inner : Nat} (hinner : inner ≤ 2)
    (hrest : ∀ c ∈ rest.head?, c ≠ quote) :
    blockString quote (fuel + 1) read (List.replicate (inner + 3) quote ++ rest) =
      some (read.reverse ++ List.replicate inner quote, rest) := by
  have hquotes := quotesAhead_replicate (inner + 3) hrest
  have hcons : List.replicate (inner + 3) quote ++ rest =
      quote :: (List.replicate (inner + 2) quote ++ rest) := rfl
  have hmin : min (inner + 3 - 3) 2 = inner := by omega
  have hdrop : (List.replicate (inner + 3) quote ++ rest).drop (inner + 3) = rest := by simp
  rw [hcons, blockString, ← hcons]
  simp only [hquotes, hmin, hdrop]
  rw [if_pos (by omega)]

theorem blockString_plain {c : Char} {t : Text} (hfew : quotesAhead quote (c :: t) < 3)
    (hslash : c ≠ '\\' ∨ quote ≠ '"') (hallowed : isForbidden c = false) :
    blockString quote (fuel + 1) read (c :: t) = blockString quote fuel (c :: read) t := by
  have hescape : ¬ (c = '\\' ∧ quote = '"') := fun h =>
    hslash.elim (fun hc => hc h.1) fun hq => hq h.2
  have hbreak := dropLineBreak_eq_none (ne_lineBreak_of_allowed hallowed) t
  rw [blockString]
  simp only [if_neg (Nat.not_le_of_lt hfew), if_neg hescape, hbreak, hallowed]
  rfl

theorem blockString_newline (hquote : '\n' ≠ quote) (t : Text) :
    blockString quote (fuel + 1) read ('\n' :: t) = blockString quote fuel ('\n' :: read) t := by
  have hfew : ¬ 3 ≤ quotesAhead quote ('\n' :: t) := by
    rw [quotesAhead_cons_of_ne hquote]
    decide
  have hescape : ¬ ('\n' = '\\' ∧ quote = '"') := fun h => absurd h.1 (by decide)
  rw [blockString]
  simp only [if_neg hfew, if_neg hescape]
  rfl

theorem blockString_escape {c : Char} {e t : Text}
    (hbreak : dropLineBreak ((e ++ t).dropWhile isSpace) = none)
    (hescaped : escaped (e ++ t) = some (c, e.length)) :
    blockString '"' (fuel + 1) read ('\\' :: (e ++ t)) = blockString '"' fuel (c :: read) t := by
  have hfew : ¬ 3 ≤ quotesAhead '"' ('\\' :: (e ++ t)) := by
    rw [quotesAhead_cons_of_ne (by decide)]
    decide
  rw [blockString]
  simp only [if_neg hfew, and_self, if_true, hbreak, hescaped, List.drop_left]

/-! ### The content of a block -/

/-- `BlockContent quote before t written`: behind so many quotes, `written` is the
    content `t` of a block.  At most two quotes in a row stand for themselves, and
    whatever is written for another character is read in one step. -/
inductive BlockContent (quote : Char) : Nat → Text → Text → Prop
  | nil {before : Nat} : before ≤ 2 → BlockContent quote before [] []
  | quote {before : Nat} {t written : Text} : BlockContent quote (before + 1) t written →
      BlockContent quote before (quote :: t) (quote :: written)
  | char {before : Nat} {c d : Char} {more t written : Text} : before ≤ 2 → d ≠ quote →
      (∀ fuel read rest, blockString quote (fuel + 1) read (d :: (more ++ rest)) =
        blockString quote fuel (c :: read) rest) →
      BlockContent quote 0 t written →
      BlockContent quote before (c :: t) (d :: (more ++ written))

namespace BlockContent

variable {before : Nat} {t written : Text}

/-- Either nothing but quotes is left, which then touch those that close the block, or
    there are never three of them. -/
theorem fewQuotes (h : BlockContent quote before t written) :
    (∃ n, before + n ≤ 2 ∧ t = List.replicate n quote ∧ written = List.replicate n quote) ∨
      ∀ rest, before + quotesAhead quote (written ++ rest) ≤ 2 := by
  induction h with
  | nil hbefore => exact .inl ⟨0, hbefore, rfl, rfl⟩
  | quote _ ih =>
    rcases ih with ⟨n, hn, rfl, rfl⟩ | hfew
    · exact .inl ⟨n + 1, by omega, rfl, rfl⟩
    · refine .inr fun rest => ?_
      have hrest := hfew rest
      rw [List.cons_append, quotesAhead_cons]
      omega
  | char hbefore hd _ _ _ =>
    refine .inr fun rest => ?_
    rw [List.cons_append, quotesAhead_cons_of_ne hd]
    exact hbefore

/-- The content of a block is read up to the quotes that close it. -/
theorem blockString (h : BlockContent quote before t written) (hslash : quote ≠ '\\')
    (hallowed : isForbidden quote = false) (hrest : ∀ c ∈ rest.head?, c ≠ quote)
    (hfuel : written.length < fuel) :
    blockString quote fuel read (written ++ (List.replicate 3 quote ++ rest)) =
      some (read.reverse ++ t, rest) := by
  have hclose : ∀ {n : Nat} {fuel : Nat} {read : Text}, n ≤ 2 →
      GroovyShell.blockString quote (fuel + 1) read
        (List.replicate n quote ++ (List.replicate 3 quote ++ rest)) =
          some (read.reverse ++ List.replicate n quote, rest) := by
    intro n fuel read hn
    rw [← List.append_assoc, List.replicate_append_replicate]
    exact blockString_close hn hrest
  induction h generalizing read fuel with
  | nil =>
    obtain ⟨fuel, rfl⟩ := Nat.exists_eq_succ_of_ne_zero (Nat.ne_zero_of_lt hfuel)
    exact hclose (Nat.zero_le 2)
  | @quote before t written hcontent ih =>
    obtain ⟨fuel, rfl⟩ := Nat.exists_eq_succ_of_ne_zero (Nat.ne_zero_of_lt hfuel)
    rcases hcontent.quote.fewQuotes with ⟨n, hn, ht, hwritten⟩ | hfew
    · rw [ht, hwritten]
      exact hclose (by omega)
    · have hthree := hfew (List.replicate 3 quote ++ rest)
      rw [List.cons_append] at hthree
      rw [List.cons_append, Nat.succ_eq_add_one,
        blockString_plain (by omega) (.inl hslash) hallowed, ih (Nat.lt_of_succ_lt_succ hfuel)]
      simp
  | char _ _ hread _ ih =>
    obtain ⟨fuel, rfl⟩ := Nat.exists_eq_succ_of_ne_zero (Nat.ne_zero_of_lt hfuel)
    simp only [List.length_cons, List.length_append] at hfuel
    rw [List.cons_append, List.append_assoc, Nat.succ_eq_add_one, hread, ih (by omega)]
    simp

end BlockContent

/-- A character that is no quote is read from what stands for it. -/
theorem blockString_readsAs {c : Char} {written : Text} (h : ReadsAs true c written)
    (hquote : c ≠ '"') (rest : Text) :
    blockString '"' (fuel + 1) read (written ++ rest) = blockString '"' fuel (c :: read) rest := by
  cases h with
  | itself hslash hallowed =>
    rcases hallowed with hallowed | ⟨-, rfl⟩
    · have hfew : quotesAhead '"' (c :: rest) < 3 := by
        rw [quotesAhead_cons_of_ne hquote]
        decide
      exact blockString_plain hfew (.inl hslash) hallowed
    · exact blockString_newline (by decide) rest
  | escape hbreak hescaped => exact blockString_escape (hbreak rest) (hescaped rest)

/-- With escapes the third quote in a row is escaped. -/
theorem escapedContent_blockContent {before : Nat} (hbefore : before ≤ 2) (t : Text) :
    BlockContent '"' before t (escapedContent true before t) := by
  induction t generalizing before with
  | nil => exact .nil hbefore
  | cons c t ih =>
    by_cases hquote : c = '"'
    · subst hquote
      by_cases hthird : before + 1 = 3
      · rw [escapedContent, if_pos rfl, if_pos (by simp [hthird])]
        have hwhole : BlockContent '"' before ('"' :: t)
            ('\\' :: (['"'] ++ escapedContent true 0 t)) :=
          .char hbefore (by decide) (fun _ _ _ => blockString_escape rfl rfl) (ih (Nat.zero_le 2))
        exact hwhole
      · rw [escapedContent, if_pos rfl, if_neg (by simp [hthird])]
        exact .quote (ih (by omega))
    · have hread := escapedChar_readsAs true c
      obtain ⟨d, more, hcons, hd⟩ := hread.eq_cons
      have hother : d ≠ '"' := by
        rcases hd with ⟨rfl, -⟩ | rfl
        · exact hquote
        · decide
      rw [escapedContent, if_neg hquote, hcons, List.cons_append]
      rw [hcons] at hread
      exact .char hbefore hother (fun _ _ rest => blockString_readsAs hread hquote rest)
        (ih (Nat.zero_le 2))

theorem le_longestRun {before : Nat} (t : Text) : before ≤ longestRun quote before t := by
  induction t generalizing before with
  | nil => exact Nat.le_refl _
  | cons c t ih =>
    unfold longestRun
    split
    · exact Nat.le_of_succ_le ih
    · exact Nat.le_max_left _ _

/-- Without escapes no more than two quotes may stand in a row. -/
theorem literal_blockContent {before : Nat} {t : Text} (hquote : quote ≠ '"' ∧ quote ≠ '\n')
    (hrun : longestRun quote before t ≤ 2) (hplain : ∀ c ∈ t, needsEscape c = false) :
    BlockContent quote before t t := by
  induction t generalizing before with
  | nil => exact .nil hrun
  | cons c t ih =>
    have hrest := fun d hd => hplain d (List.mem_cons_of_mem c hd)
    rw [longestRun] at hrun
    split at hrun
    · rename_i hc
      subst hc
      exact .quote (ih hrun hrest)
    · rename_i hc
      have hbefore := Nat.le_trans (Nat.le_max_left before _) hrun
      have hbehind := ih (Nat.le_trans (Nat.le_max_right before _) hrun) hrest
      have hwhole : BlockContent quote before (c :: t) (c :: ([] ++ t)) := by
        refine .char hbefore hc (fun fuel read rest => ?_) hbehind
        by_cases hnewline : c = '\n'
        · subst hnewline
          exact blockString_newline hquote.2.symm rest
        · have hfew : quotesAhead quote (c :: rest) < 3 := by
            rw [quotesAhead_cons_of_ne hc]
            decide
          have hallowed : isForbidden c = false := by
            simp [isForbidden_eq, hplain c List.mem_cons_self, hnewline]
          exact blockString_plain hfew (.inr hquote.1) hallowed
      exact hwhole

/-! ### The four notations -/

/-- What a notation demands of the string that is written in it. -/
def StringNotation.Fits (t : Text) : StringNotation → Prop
  | .basic | .basicBlock => True
  | .literal => '\'' ∉ t ∧ ∀ c ∈ t, isForbidden c = false
  | .literalBlock => longestRun '\'' 0 t ≤ 2 ∧ ∀ c ∈ t, needsEscape c = false

theorem not_mem_of_longestRun {t : Text} (h : longestRun quote 0 t = 0) : quote ∉ t := by
  induction t with
  | nil => simp
  | cons c t ih =>
    rw [longestRun] at h
    split at h
    · have hone : 0 + 1 ≤ longestRun quote (0 + 1) t := le_longestRun t
      omega
    · rename_i hc
      have hrest := ih (by omega)
      simp [hrest, Ne.symm hc]

theorem chosenNotation_fits (t : Text) : (chosenNotation t).Fits t := by
  unfold chosenNotation
  dsimp only
  split_ifs with hbasic hliteral hdouble hsingle hbreak
  · trivial
  · simp only [Bool.and_eq_true, Bool.not_eq_true', List.any_eq_false, List.contains_eq_mem,
      beq_iff_eq, decide_eq_false_iff_not] at hliteral
    obtain ⟨⟨hspecial, hnewline⟩, hnone⟩ := hliteral
    refine ⟨not_mem_of_longestRun hnone, fun c hc => ?_⟩
    have hother : c ≠ '\n' := fun h => hnewline (h ▸ hc)
    simpa [isForbidden_eq, hother] using hspecial c hc
  · trivial
  · simp only [Bool.and_eq_true, Bool.not_eq_true', List.any_eq_false, decide_eq_true_eq] at hsingle
    exact ⟨hsingle.2, fun c hc => by simpa using hsingle.1 c hc⟩
  · trivial
  · trivial

/-- A quote behind which no second one stands begins a string in one line. -/
theorem readString_line {written : Text} (hquote : quote = '"' ∨ quote = '\'')
    (hwritten : ∀ c ∈ written.head?, c ≠ quote) (hrest : ∀ c ∈ rest.head?, c ≠ quote) :
    readString (quote :: (written ++ quote :: rest)) =
      lineString quote ((written ++ quote :: rest).length + 1) [] (written ++ quote :: rest) := by
  unfold readString
  simp only [if_pos hquote]
  cases hshape : written ++ quote :: rest with
  | nil => rfl
  | cons a more =>
    cases more with
    | nil => rfl
    | cons b more =>
      have hopen : ¬ (a = quote ∧ b = quote) := by
        rintro ⟨rfl, rfl⟩
        cases written with
        | nil =>
          obtain rfl : rest = b :: more := by simpa using hshape
          exact hrest b rfl rfl
        | cons c written =>
          obtain ⟨rfl, -⟩ := List.cons.inj hshape
          exact hwritten c rfl rfl
      simp only [if_neg hopen]
      rfl

theorem readString_block (hquote : quote = '"' ∨ quote = '\'') (t : Text) :
    readString (List.replicate 3 quote ++ t) =
      blockString quote (((dropLineBreak t).getD t).length + 1) [] ((dropLineBreak t).getD t) := by
  have hshape : List.replicate 3 quote ++ t = quote :: quote :: quote :: t := rfl
  rw [hshape, readString, if_pos hquote]
  simp only [and_self, if_true]

/-- The line break that begins a block of several lines is no part of its content. -/
theorem dropLineBreak_opened {t content : Text}
    (h : t.contains '\n' = false → ∀ c ∈ content.head?, c ≠ '\n' ∧ c ≠ '\r') :
    let opened := (if t.contains '\n' then ['\n'] else []) ++ content
    (dropLineBreak opened).getD opened = content := by
  cases hlines : t.contains '\n' with
  | true => rfl
  | false =>
    cases content with
    | nil => rfl
    | cons c content =>
      have hnone := dropLineBreak_eq_none (h hlines c rfl) content
      simp [hnone]

theorem escapedContent_head (t : Text) : ∀ c ∈ (escapedContent false 0 t).head?, c ≠ '"' := by
  intro d hd
  cases t with
  | nil => simp [escapedContent] at hd
  | cons c t =>
    by_cases hquote : c = '"'
    · rw [escapedContent, if_pos hquote, if_pos (by simp)] at hd
      obtain rfl : '\\' = d := by simpa using hd
      decide
    · obtain ⟨first, more, hcons, hfirst⟩ := (escapedChar_readsAs false c).eq_cons
      rw [escapedContent, if_neg hquote, hcons] at hd
      obtain rfl : first = d := by simpa using hd
      rcases hfirst with ⟨rfl, -⟩ | rfl
      · exact hquote
      · decide

/-- Only a line break in a string is written by one. -/
theorem escapedContent_head_block {t : Text} (h : t.contains '\n' = false) (behind : Text) :
    ∀ c ∈ (escapedContent true 0 t ++ '"' :: behind).head?, c ≠ '\n' ∧ c ≠ '\r' := by
  intro d hd
  cases t with
  | nil =>
    obtain rfl : '"' = d := by simpa [escapedContent] using hd
    decide
  | cons c t =>
    have hnewline : c ≠ '\n' := by
      rintro rfl
      simp at h
    by_cases hquote : c = '"'
    · rw [escapedContent, if_pos hquote, if_neg (by simp)] at hd
      obtain rfl : '"' = d := by simpa using hd
      decide
    · obtain ⟨first, more, hcons, hfirst⟩ := (escapedChar_readsAs true c).eq_cons
      rw [escapedContent, if_neg hquote, hcons] at hd
      obtain rfl : first = d := by simpa using hd
      rcases hfirst with ⟨rfl, hallowed | ⟨-, hbreak⟩⟩ | rfl
      · exact ne_lineBreak_of_allowed hallowed
      · exact absurd hbreak hnewline
      · decide

/-- A string is read back in any notation it fits. -/
theorem readString_writeStringIn {n : StringNotation} {t : Text} (h : n.Fits t)
    (hrest : ∀ c ∈ rest.head?, c ≠ '"' ∧ c ≠ '\'') :
    readString (writeStringIn n t ++ rest) = some (t, rest) := by
  have hdouble : ∀ c ∈ rest.head?, c ≠ '"' := fun c hc => (hrest c hc).1
  have hsingle : ∀ c ∈ rest.head?, c ≠ '\'' := fun c hc => (hrest c hc).2
  have hfuel (content behind : Text) : content.length < (content ++ behind).length + 1 := by
    rw [List.length_append]
    omega
  cases n with
  | basic =>
    have hwritten : writeStringIn .basic t ++ rest =
        '"' :: (escapedContent false 0 t ++ '"' :: rest) := by simp [writeStringIn]
    rw [hwritten, readString_line (.inl rfl) (escapedContent_head t) hdouble,
      lineString_escaped t (hfuel _ _)]
    rfl
  | literal =>
    obtain ⟨hquote, hallowed⟩ := h
    have hplain : ∀ c ∈ t, c ≠ '\'' ∧ isForbidden c = false := fun c hc =>
      ⟨fun h => hquote (h ▸ hc), hallowed c hc⟩
    have hhead : ∀ c ∈ t.head?, c ≠ '\'' := fun c hc => (hplain c (List.mem_of_mem_head? hc)).1
    have hwritten : writeStringIn .literal t ++ rest = '\'' :: (t ++ '\'' :: rest) := by
      simp [writeStringIn]
    rw [hwritten, readString_line (.inr rfl) hhead hsingle,
      lineString_literal hplain (by decide) (hfuel _ _)]
    rfl
  | basicBlock =>
    let content := escapedContent true 0 t ++ (List.replicate 3 '"' ++ rest)
    have hwritten : writeStringIn .basicBlock t ++ rest =
        List.replicate 3 '"' ++ ((if t.contains '\n' then ['\n'] else []) ++ content) := by
      simp [writeStringIn, content, List.replicate_succ]
    have hopened : t.contains '\n' = false → ∀ c ∈ content.head?, c ≠ '\n' ∧ c ≠ '\r' :=
      fun hlines => escapedContent_head_block hlines _
    rw [hwritten, readString_block (.inl rfl), dropLineBreak_opened hopened,
      (escapedContent_blockContent (Nat.zero_le 2) t).blockString (by decide) (by decide) hdouble
        (hfuel _ _)]
    rfl
  | literalBlock =>
    obtain ⟨hrun, hplain⟩ := h
    let content := t ++ (List.replicate 3 '\'' ++ rest)
    have hwritten : writeStringIn .literalBlock t ++ rest =
        List.replicate 3 '\'' ++ ((if t.contains '\n' then ['\n'] else []) ++ content) := by
      simp [writeStringIn, content, List.replicate_succ]
    have hopened : t.contains '\n' = false → ∀ c ∈ content.head?, c ≠ '\n' ∧ c ≠ '\r' := by
      intro hlines c hc
      cases t with
      | nil =>
        obtain rfl : '\'' = c := by simpa [content] using hc
        decide
      | cons d t =>
        obtain rfl : d = c := by simpa [content] using hc
        have hnewline : d ≠ '\n' := by
          rintro rfl
          simp at hlines
        apply ne_lineBreak_of_allowed
        simp [isForbidden_eq, hplain d List.mem_cons_self, hnewline]
    rw [hwritten, readString_block (.inr rfl), dropLineBreak_opened hopened,
      (literal_blockContent (by decide) hrun hplain).blockString (by decide) (by decide) hsingle
        (hfuel _ _)]
    rfl

/-- **A string that was written is read back**, whatever stands behind it but a quote. -/
theorem readString_writeString (t : Text) (hrest : ∀ c ∈ rest.head?, c ≠ '"' ∧ c ≠ '\'') :
    readString (writeString t ++ rest) = some (t, rest) :=
  readString_writeStringIn (chosenNotation_fits t) hrest

end GroovyShell
