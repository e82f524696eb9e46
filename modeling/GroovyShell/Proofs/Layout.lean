/-
  GroovyShell/Proofs/Layout.lean
  ==============================
  **A text is its gaps and its tokens.**

  Reading a text loses nothing: the texts of the tokens, with the gaps between
  them, put the text together again, and every token and every failure bears the
  place at which it stands there.  `LaidOut` says so without a lexer.  It is
  carried from one reading to the whole run by the invariant `Lexer.Stands`,
  which ties the place a lexer keeps to the text it has read.
-/
import GroovyShell.Lexing.Lexer
import GroovyShell.Proofs.GapText
import GroovyShell.Proofs.Items

namespace GroovyShell

/-! ### Layouts -/

/-- `LaidOut before nesting t tokens ending`: behind `before`, with the
    interpolations `nesting` open, `t` is laid out as `tokens` with a gap before
    each of them, up to its end or to the item that cannot be read.  A gap is all
    the white space and comments that stand there.  Tokens and failures bear the
    place just behind everything that stands before them. -/
inductive LaidOut : Text → List Interpolation → Text → List Token → Except LexError Token → Prop
  | token {before gap rest : Text} {nesting : List Interpolation} {token : Token}
      {tokens : List Token} {ending : Except LexError Token} :
      IsGap before.isEmpty (token.text ++ rest) gap → ¬ BeginsGap (token.text ++ rest) →
        token.text ≠ [] → token.kind ≠ .endOfInput → token.position = .behind (before ++ gap) →
        LaidOut (before ++ gap ++ token.text) (token.nestingAfter nesting) rest tokens ending →
          LaidOut before nesting (gap ++ token.text ++ rest) (token :: tokens) ending
  | finished {before gap : Text} {nesting : List Interpolation} :
      IsGap before.isEmpty [] gap →
        LaidOut before nesting gap [] (.ok ⟨.endOfInput, [], .behind (before ++ gap)⟩)
  | openComment {before gap rest : Text} {nesting : List Interpolation} :
      IsGap before.isEmpty rest gap → OpensComment rest →
        LaidOut before nesting (gap ++ rest) []
          (.error (.at .unterminatedComment (.behind (before ++ gap))))
  | openString {before gap rest : Text} {nesting : List Interpolation} {triple resumed : Bool} :
      IsGap before.isEmpty rest gap → ¬ BeginsGap rest → StringAhead nesting rest triple resumed →
        LaidOut before nesting (gap ++ rest) []
          (.error (.at .unterminatedString (.behind (before ++ gap))))
  | unexpected {before gap rest : Text} {nesting : List Interpolation} {c : Char} :
      IsGap before.isEmpty (c :: rest) gap → ¬ BeginsGap (c :: rest) →
        LaidOut before nesting (gap ++ c :: rest) []
          (.error (.at (.unexpectedChar c) (.behind (before ++ gap))))

/-! ### One reading -/

namespace Lexer

/-- The place a lexer keeps is the one behind what it has read. -/
structure Stands (l : Lexer) (before : Text) : Prop where
  offset : l.offset = before.length
  position : l.position = .behind before

theorem stands_new (source : Text) : (new source).Stands [] := ⟨rfl, rfl⟩

theorem Stands.skip {l : Lexer} {before : Text} (h : l.Stands before) (n : Nat) :
    (l.skip n).Stands (before ++ l.rest.take n) where
  offset := by simp only [Lexer.skip, h.offset, List.length_append]
  position := by simp only [Lexer.skip, h.position, Position.behind_append]

theorem Stands.opening {l : Lexer} {before : Text} (h : l.Stands before) :
    (l.offset == 0) = before.isEmpty := by
  rw [h.offset]
  cases before <;> simp

/-- Read the item at the head of the rest. -/
def readItem (l : Lexer) : Except LexError Token × Lexer :=
  match itemAt l.nesting l.rest with
  | .token kind length nesting =>
    (.ok ⟨kind, l.rest.take length, l.position⟩, { l.skip length with nesting })
  | .unterminated length nesting =>
    (.error (.at .unterminatedString l.position), { l.skip length with nesting })
  | .unexpected c => (.error (.at (.unexpectedChar c) l.position), l)

/-- A reading skips a gap.  Then it reads an item, unless a comment without an end
    stands there. -/
theorem next_cases {l : Lexer} {before : Text} (h : l.Stands before) :
    ∃ (gap : Text) (here : Lexer), l.rest = gap ++ here.rest ∧
      IsGap before.isEmpty here.rest gap ∧ here.Stands (before ++ gap) ∧ here.nesting = l.nesting ∧
      (¬ BeginsGap here.rest ∧ l.next = here.readItem ∨
        OpensComment here.rest ∧
          l.next = (.error (.at .unterminatedComment here.position), l.skip l.rest.length)) := by
  obtain ⟨gap, rest, hrest, hgap, hresult⟩ := gap_measures (l.offset == 0) l.rest
  rw [h.opening] at hgap
  have hhere : (l.skip gap.length).Stands (before ++ gap) := by
    simpa [hrest] using h.skip gap.length
  have htail : rest = (l.skip gap.length).rest := by simp [skip, hrest]
  subst htail
  refine ⟨gap, l.skip gap.length, hrest, hgap, hhere, rfl, ?_⟩
  unfold next
  rcases hresult with ⟨hclosed, hends⟩ | ⟨hopen, hcomment⟩
  · left
    rw [hclosed, Nat.zero_add]
    exact ⟨hends, rfl⟩
  · right
    rw [hopen, Nat.zero_add]
    exact ⟨hcomment, rfl⟩

/-- What is read as a token is taken off the rest, and so is the gap before it. -/
theorem next_token {l after : Lexer} {before : Text} {token : Token} (h : l.Stands before)
    (hnext : l.next = (.ok token, after)) (inside : token.kind ≠ .endOfInput) :
    ∃ gap, l.rest = gap ++ token.text ++ after.rest ∧
      IsGap before.isEmpty (token.text ++ after.rest) gap ∧
      ¬ BeginsGap (token.text ++ after.rest) ∧ token.text ≠ [] ∧
      token.position = .behind (before ++ gap) ∧ after.nesting = token.nestingAfter l.nesting ∧
      after.Stands (before ++ gap ++ token.text) := by
  obtain ⟨gap, here, hrest, hgap, hhere, hnesting, ⟨hends, hread⟩ | ⟨-, hread⟩⟩ := next_cases h
  · rw [hread] at hnext
    unfold readItem at hnext
    split at hnext
    · rename_i kind length nesting hitem
      simp only [Prod.mk.injEq, Except.ok.injEq] at hnext
      obtain ⟨rfl, rfl⟩ := hnext
      obtain ⟨hlength, hsome⟩ := itemAt_token hitem inside
      have htaken := hhere.skip length
      refine ⟨gap, ?_, ?_, ?_, ?_, hhere.position, ?_, ⟨htaken.offset, htaken.position⟩⟩
      · simp [skip, hrest]
      · simpa [skip] using hgap
      · simpa [skip] using hends
      · intro hempty
        rcases List.take_eq_nil_iff.mp hempty with hzero | hnil
        · omega
        · simp [hnil] at hsome
      · rw [← hnesting]
        exact itemAt_nesting _ hitem
    · simp at hnext
    · simp at hnext
  · simp [hread] at hnext

theorem next_end {l after : Lexer} {before : Text} {token : Token} (h : l.Stands before)
    (hnext : l.next = (.ok token, after)) (atEnd : token.kind = .endOfInput) :
    LaidOut before l.nesting l.rest [] (.ok token) := by
  obtain ⟨gap, here, hrest, hgap, hhere, hnesting, ⟨-, hread⟩ | ⟨-, hread⟩⟩ := next_cases h
  · rw [hread] at hnext
    unfold readItem at hnext
    split at hnext
    · rename_i kind length nesting hitem
      simp only [Prod.mk.injEq, Except.ok.injEq] at hnext
      obtain ⟨rfl, -⟩ := hnext
      simp only at atEnd
      subst atEnd
      have hempty := itemAt_end hitem
      rw [hempty, List.append_nil] at hrest
      rw [hempty] at hgap
      rw [hrest, hempty, List.take_nil, hhere.position]
      exact .finished hgap
    · simp at hnext
    · simp at hnext
  · simp [hread] at hnext

theorem next_error {l after : Lexer} {before : Text} {e : LexError} (h : l.Stands before)
    (hnext : l.next = (.error e, after)) : LaidOut before l.nesting l.rest [] (.error e) := by
  obtain ⟨gap, here, hrest, hgap, hhere, hnesting, hread⟩ := next_cases h
  rw [hrest]
  rcases hread with ⟨hends, hread⟩ | ⟨hcomment, hread⟩
  · rw [hread] at hnext
    unfold readItem at hnext
    split at hnext
    · simp at hnext
    · rename_i length nesting hitem
      simp only [Prod.mk.injEq, Except.error.injEq] at hnext
      obtain ⟨triple, resumed, hahead⟩ := itemAt_unterminated hitem
      rw [← hnext.1, hhere.position]
      exact .openString hgap hends (hnesting ▸ hahead)
    · rename_i c hitem
      simp only [Prod.mk.injEq, Except.error.injEq] at hnext
      obtain ⟨rest, hc⟩ := itemAt_unexpected hitem
      rw [hc] at hgap hends
      rw [← hnext.1, hhere.position, hc]
      exact .unexpected hgap hends
  · rw [hread] at hnext
    simp only [Prod.mk.injEq, Except.error.injEq] at hnext
    rw [← hnext.1, hhere.position]
    exact .openComment hgap hcomment

/-! ### The whole run -/

/-- A run lays out the rest of the lexer. -/
theorem run_laidOut {l : Lexer} {before : Text} (h : l.Stands before) :
    LaidOut before l.nesting l.rest l.run.tokens l.run.ending := by
  fun_induction run l generalizing before with
  | case1 l e after hnext => exact next_error h hnext
  | case2 l token after hnext atEnd => exact next_end h hnext atEnd
  | case3 l token after hnext inside scan =>
    rename_i ih
    obtain ⟨gap, hrest, hgap, hends, hsome, hposition, hnesting, hafter⟩ :=
      next_token h hnext inside
    rw [hrest]
    apply LaidOut.token hgap hends hsome inside hposition
    rw [← hnesting]
    exact ih hafter

end Lexer

/-- **Reading a text loses nothing.**  Gaps and tokens make up the text, gaps are
    white space and comments, and places count lines and columns. -/
theorem lexAll_laidOut (source : Text) :
    LaidOut [] [] source (lexAll source).tokens (lexAll source).ending :=
  Lexer.run_laidOut (Lexer.stands_new source)

end GroovyShell
