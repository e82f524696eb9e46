/-
  GroovyShell/Proofs/Spelling.lean
  ================================
  **The words a text spells, wherever they stand.**

  Of a run only the kinds and the texts of its tokens are kept, and of the lexer
  only the stack of open interpolations (`Spelled`).  A text is then put together
  word by word, from its end on: blanks are free, a name ends where no name could
  go on, and of a mark only what a glance behind it shows counts.  What has been
  put together is what the lexer reads (`Lexer.run_of_spelled`).
-/
import GroovyShell.Proofs.Rereading
import GroovyShell.Session.Command

namespace GroovyShell

/-- What a token is and how it is written, wherever it stands. -/
def Token.word (t : Token) : TokenKind × Text := (t.kind, t.text)

/-! ### The words a text spells -/

/-- `Spelled last nesting t words`: with the interpolations `nesting` open, `t`
    reads as `words`, with nothing but white space between them, and leaves the
    interpolations `last` open. -/
inductive Spelled (last : List Interpolation) :
    List Interpolation → Text → List (TokenKind × Text) → Prop
  | finished : Spelled last last [] []
  | blank {nesting : List Interpolation} {c : Char} {t : Text} {words : List (TokenKind × Text)} :
      isBlank c = true → Spelled last nesting t words → Spelled last nesting (c :: t) words
  | token {nesting after : List Interpolation} {kind : TokenKind} {text t : Text}
      {words : List (TokenKind × Text)} :
      kind ≠ .endOfInput → ¬ BeginsGap (text ++ t) →
      itemAt nesting (text ++ t) = .token kind text.length after →
      Spelled last after t words → Spelled last nesting (text ++ t) ((kind, text) :: words)

variable {last nesting : List Interpolation} {words : List (TokenKind × Text)}

theorem Spelled.blanks {gap t : Text} (hgap : gap.isBlankOnly = true)
    (h : Spelled last nesting t words) : Spelled last nesting (gap ++ t) words := by
  induction gap with
  | nil => exact h
  | cons c gap ih =>
    simp only [Text.isBlankOnly, List.all_cons, Bool.and_eq_true] at hgap
    exact .blank hgap.1 (ih hgap.2)

namespace Lexer

/-- A text is read as the words it spells. -/
theorem run_of_spelled {t : Text} (h : Spelled last nesting t words) {l : Lexer}
    (hrest : l.rest = t) (hnesting : l.nesting = nesting) :
    (∃ eof, l.run.ending = .ok eof) ∧ l.run.tokens.map Token.word = words ∧
      l.run.lexer.nesting = last := by
  -- on the spelling, whatever the place and the offset at which the lexer stands
  induction h generalizing l with
  | finished =>
    have hreads : l.Reads [] ⟨.endOfInput, [], l.position⟩ l := by
      refine ⟨rfl, ?_, ?_, ?_, rfl, rfl, rfl⟩
      · exact .plain .none
      · rw [hrest]
        simp [BeginsGap, Text.beginsWith]
      · rw [hrest]
        rfl
    rw [run_end hreads.next rfl]
    exact ⟨⟨_, rfl⟩, rfl, hnesting⟩
  | @blank nesting c t words hc _ ih =>
    have hgap : IsGap (l.offset == 0) t [c] := .plain (.blank hc .none)
    rw [run_congr (next_through hrest hgap (by simp))]
    exact ih (by simp [skip, hrest]) hnesting
  | @token nesting after kind text t words inside hends hitem _ ih =>
    have hreads : l.Reads [] ⟨kind, text, l.position⟩
        ⟨t, l.offset + text.length, l.position.after text, after⟩ := by
      refine ⟨hrest, .plain .none, hends, ?_, rfl, rfl, rfl⟩
      rw [hnesting]
      exact hitem
    obtain ⟨hending, htokens, hlast⟩ := ih (l := ⟨t, _, _, after⟩) rfl rfl
    rw [run_token hreads.next inside]
    exact ⟨hending, by rw [List.map_cons, htokens]; rfl, hlast⟩

/-- A text that spells words is tokenized as these words. -/
theorem tokensOf_of_spelled {t : Text} (h : Spelled last [] t words) :
    ∃ tokens, tokensOf t = .ok tokens ∧ tokens.map Token.word = words := by
  obtain ⟨hend, hwords, -⟩ := run_of_spelled h (l := .new t) rfl rfl
  exact ⟨_, tokensOf_eq_ok.mpr ⟨hend, rfl⟩, hwords⟩

end Lexer

/-! ### Names, dots and stars are read one by one -/

theorem continuesName_of_startsName {c : Char} (h : startsName c = true) :
    continuesName c = true := by
  simp only [startsName, continuesName, Bool.or_eq_true] at h ⊢
  tauto

theorem startsName_of_isDigit {c : Char} (h : c.isDigit = true) : startsName c = false := by
  have hbounds : 48 ≤ c.toNat ∧ c.toNat ≤ 57 := by
    simpa [Char.isDigit, UInt32.le_iff_toNat_le] using h
  have hletter : isLetter c = false := by
    rw [← Bool.not_eq_true, isLetter_ascii (by omega)]
    omega
  have hunderscore : c ≠ '_' := by
    rintro rfl
    simp at h
  have hdollar : c ≠ '$' := by
    rintro rfl
    simp at h
  simp [startsName, hletter, hunderscore, hdollar]

/-- The characters that begin a token of another kind than a name. -/
theorem startsName_ne {c : Char} (h : startsName c = true) :
    c ∉ '\x7b' :: '\x7d' :: '\'' :: '"' :: '?' :: '*' :: '/' :: markChars := by
  have hmarks : ('\x7b' :: '\x7d' :: '\'' :: '"' :: '?' :: '*' :: '/' :: markChars).any
      startsName = false := by decide
  intro hc
  exact List.any_eq_false.mp hmarks c hc h

theorem itemAt_plainName {name t : Text} (h : isPlainName name = true)
    (hend : ∀ c ∈ t.head?, continuesName c = false) (nesting : List Interpolation) :
    itemAt nesting (name ++ t) = .token (wordKind name) name.length nesting := by
  rcases name with _ | ⟨c, name⟩
  · simp [isPlainName] at h
  simp only [isPlainName, Bool.and_eq_true, List.all_eq_true] at h
  obtain ⟨hfirst, hall⟩ := h
  -- no other kind of token begins with a character that begins a name
  have hother := startsName_ne hfirst
  simp only [List.mem_cons, not_or] at hother
  obtain ⟨hopen, hclose, hsingle, hdouble, hquestion, hstar, -, hmark⟩ := hother
  have hdot : c ≠ '.' := by
    rintro rfl
    exact hmark (by decide)
  have hcolon : c ≠ ':' := by
    rintro rfl
    exact hmark (by decide)
  have hdigit : c.isDigit = false := by
    by_contra hdigit
    simp [startsName_of_isDigit (by simpa using hdigit)] at hfirst
  have htaken : (name ++ t).takeWhile continuesName = name := by
    have hrest : t.takeWhile continuesName = [] := by
      rcases t with _ | ⟨d, t⟩
      · rfl
      · simp [hend d rfl]
    rw [List.takeWhile_append_of_pos hall, hrest, List.append_nil]
  have hplain : plainItem (c :: (name ++ t)) = some (wordKind (c :: name), name.length + 1) := by
    refine plainItem_eq_some.mpr (.inr ⟨?_, .inr ⟨?_, .inr ⟨?_, .inl ?_⟩⟩⟩)
    · simp [dotItem_cons, hdot, hquestion, hstar]
    · simp [markItem_cons, hcolon, markItem_none hmark]
    · simp [numberItem, hdigit]
    · simp [wordItem, hfirst, htaken]
  simp [itemAt, hopen, hclose, hsingle, hdouble, hplain]

theorem itemAt_dot {t : Text} (h : ∀ c ∈ t.head?, c ∉ ['.', '&', '@'])
    (nesting : List Interpolation) :
    itemAt nesting ('.' :: t) = .token (.dot .plain) 1 nesting := by
  have hdot : dotItem ('.' :: t) = some (.dot .plain, 1) := by
    rw [dotItem_cons, if_pos rfl, if_neg]
    rintro (he | he | he)
    · exact h _ he (by decide)
    · exact h _ he (by decide)
    · exact h _ he (by decide)
  simp [itemAt, plainItem_eq_some.mpr (.inl hdot)]

/-- A token with white space behind it is the token by itself. -/
theorem itemAt_before_blank {nesting after : List Interpolation} {token t : Text}
    {kind : TokenKind} (halone : itemAt nesting token = .token kind token.length after)
    (inside : kind ≠ .endOfInput) (h : ∀ c ∈ t.head?, isBlank c = true) :
    itemAt nesting (token ++ t) = .token kind token.length after := by
  have hglance : t.glance <+: Text.glance [] := by
    rcases t with _ | ⟨c, t⟩
    · exact List.prefix_refl _
    · rw [Text.glance_blank (h c rfl)]
      exact List.nil_prefix
  apply itemAt_of_glance _ inside hglance
  rwa [List.append_nil]

theorem itemAt_star {t : Text} (h : ∀ c ∈ t.head?, isBlank c = true)
    (nesting : List Interpolation) : itemAt nesting ('*' :: t) = .token .operator 1 nesting := by
  have halone : itemAt nesting ['*'] = .token .operator (['*'] : Text).length nesting := by
    have hplain : plainItem ['*'] = some (.operator, 1) := by decide
    simp [itemAt, hplain]
  exact itemAt_before_blank halone (by decide) h

theorem isBlank_of_continuesName {c : Char} (h : continuesName c = true) : isBlank c = false := by
  by_contra hblank
  simp [Solid.continuesName c (by simpa using hblank)] at h

/-- Only a slash or white space begins a gap. -/
theorem not_beginsGap_of_ne {c : Char} (hslash : c ≠ '/') (hblank : isBlank c = false) (t : Text) :
    ¬ BeginsGap (c :: t) :=
  not_beginsGap_cons (fun _ he => absurd he hslash) (fun _ he => absurd he hslash) (by simp [hblank])

theorem not_beginsGap_plainName {name : Text} (h : isPlainName name = true) (t : Text) :
    ¬ BeginsGap (name ++ t) := by
  rcases name with _ | ⟨c, name⟩
  · simp [isPlainName] at h
  simp only [isPlainName, Bool.and_eq_true] at h
  have hslash : c ≠ '/' := by
    rintro rfl
    exact startsName_ne h.1 (by decide)
  have hblank := isBlank_of_continuesName (continuesName_of_startsName h.1)
  exact not_beginsGap_of_ne hslash hblank _

namespace Spelled

variable {name t : Text}

theorem plainName (hname : isPlainName name = true)
    (hend : ∀ c ∈ t.head?, continuesName c = false) (h : Spelled last nesting t words) :
    Spelled last nesting (name ++ t) ((wordKind name, name) :: words) := by
  refine .token ?_ (not_beginsGap_plainName hname t) (itemAt_plainName hname hend nesting) h
  unfold wordKind
  split <;> simp

theorem dot (hnext : ∀ c ∈ t.head?, c ∉ ['.', '&', '@']) (h : Spelled last nesting t words) :
    Spelled last nesting ('.' :: t) ((.dot .plain, ['.']) :: words) := by
  have hends : ¬ BeginsGap (['.'] ++ t) := not_beginsGap_of_ne (by decide) (by decide) t
  exact .token (by simp) hends (itemAt_dot hnext nesting) h

theorem star (hnext : ∀ c ∈ t.head?, isBlank c = true) (h : Spelled last nesting t words) :
    Spelled last nesting ('*' :: t) ((.operator, ['*']) :: words) := by
  have hends : ¬ BeginsGap (['*'] ++ t) := not_beginsGap_of_ne (by decide) (by decide) t
  exact .token (by simp) hends (itemAt_star hnext nesting) h

/-- A reserved word with a blank behind it. -/
theorem keyword {k : Keyword} (hname : isPlainName name = true) (hk : Keyword.lookup name = some k)
    (h : Spelled last nesting t words) :
    Spelled last nesting (name ++ ' ' :: t) ((.keyword k, name) :: words) := by
  have hkind : wordKind name = .keyword k := by rw [wordKind, hk]
  have hend : ∀ c ∈ (' ' :: t).head?, continuesName c = false := by
    simp only [List.head?_cons, Option.mem_some_iff, forall_eq']
    decide
  rw [← hkind]
  exact (h.blank (by decide)).plainName hname hend

end Spelled

end GroovyShell
