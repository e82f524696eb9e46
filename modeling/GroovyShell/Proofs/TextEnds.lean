/-
  GroovyShell/Proofs/TextEnds.lean
  ================================
  **What is read when a text goes on behind its last token.**

  A text that ends with its last token leaves the lexer with nothing to read and
  nothing half seen.  What is put behind it, a dot or a word on the other side of
  a blank, is then read where the text ends, and the tokens before stay what they
  are (`Lexer.Emits.extend`).  And wherever a text stands, it is read as the same
  words (`Lexer.run_elsewhere`).
-/
import GroovyShell.Proofs.DotBehind
import GroovyShell.Proofs.Emission
import GroovyShell.Proofs.Spelling

namespace GroovyShell

/-- `EndsInToken source last`: `source` can be read to its end, which is the end of
    its last token. -/
structure EndsInToken (source : Text) (last : Token) : Prop where
  read : ∃ eof, (lexAll source).ending = .ok eof
  ends : (lexAll source).tokens.getLast? = some last
  closing : ∃ front, source = front ++ last.text ∧ last.position = .behind front

/-- Behind more text there is a later place. -/
theorem Position.behind_append_eq {before more : Text}
    (h : Position.behind (before ++ more) = .behind before) : more = [] := by
  simp only [Position.behind, Position.mk.injEq, List.count_append] at h
  obtain ⟨hline, hcolumn⟩ := h
  have hnone : '\n' ∉ more := by
    rw [← List.count_eq_zero]
    omega
  rw [Text.lastPart_append _ _ hnone, List.length_append] at hcolumn
  exact List.length_eq_zero_iff.mp (by omega)

namespace Lexer

namespace Emits

variable {l after : Lexer} {tokens : List Token}

theorem split {front : List Token} (h : l.Emits (front ++ tokens) after) :
    ∃ middle, l.Emits front middle ∧ middle.Emits tokens after := by
  induction front generalizing l with
  | nil => exact ⟨l, .nothing l, h⟩
  | cons token front ih =>
    rw [List.cons_append] at h
    cases h with
    | token hnext hkind hmore =>
      obtain ⟨middle, hfront, hrest⟩ := ih hmore
      exact ⟨middle, .token hnext hkind hfront, hrest⟩

/-- What is emitted stays the same with more text behind it, if that changes no
    token. -/
theorem extend {more : Text} (h : l.Emits tokens after)
    (hstep : ∀ {m n : Lexer} {gap : Text} {token : Token}, m.Reads gap token n →
      token.kind ≠ .endOfInput → token.text ++ n.rest <:+ l.rest →
        (m.extend more).Reads gap token (n.extend more)) :
    (l.extend more).Emits tokens (after.extend more) := by
  induction h with
  | nothing l => exact .nothing _
  | @token l middle after token tokens hnext hkind _ ih =>
    obtain ⟨gap, hreads⟩ := reads_of_next hnext
    have hsuffix : token.text ++ middle.rest <:+ l.rest := ⟨gap, hreads.rest.symm⟩
    refine .token (hstep hreads hkind hsuffix).next hkind (ih ?_)
    intro m n gap' token' hreads' hkind' hsuffix'
    exact hstep hreads' hkind' (hsuffix'.trans ((List.suffix_append _ _).trans hsuffix))

/-- The last reading of several. -/
theorem last {last : Token} (h : l.Emits tokens after) (hlast : tokens.getLast? = some last) :
    ∃ middle gap front, l.Emits front middle ∧ middle.Reads gap last after ∧
      last.kind ≠ .endOfInput := by
  obtain ⟨front, rfl⟩ := List.getLast?_eq_some_iff.mp hlast
  obtain ⟨middle, hfront, hrest⟩ := h.split
  cases hrest with
  | token hnext hkind hnone =>
    cases hnone
    obtain ⟨gap, hreads⟩ := reads_of_next hnext
    exact ⟨middle, gap, front, hfront, hreads, hkind⟩

end Emits

/-- Behind its last token such a text is all read. -/
theorem emits_of_endsInToken {source : Text} {last : Token} (h : EndsInToken source last) :
    ∃ after, (new source).Emits (lexAll source).tokens after ∧ after.rest = [] ∧
      after.Stands source := by
  obtain ⟨after, hemits, -⟩ := emits_run (new source)
  obtain ⟨middle, gap, _, hfront, hreads, -⟩ := hemits.last h.ends
  obtain ⟨read, hread, hmiddle⟩ := hfront.stands (stands_new source)
  obtain ⟨all, hall, hafter⟩ := hemits.stands (stands_new source)
  obtain ⟨front, hclosing, hplace⟩ := h.closing
  have hsource : source = (read ++ gap) ++ (last.text ++ after.rest) := by
    rw [List.append_assoc, ← hreads.rest]
    exact hread
  have hprefix : read ++ gap <+: front := by
    have hlength := congrArg List.length (hclosing.symm.trans hsource)
    simp only [List.length_append] at hlength
    apply List.prefix_of_prefix_length_le ⟨_, hsource.symm⟩ ⟨_, hclosing.symm⟩
    rw [List.length_append]
    omega
  obtain ⟨more, rfl⟩ := hprefix
  -- both are places of the last token
  have hsame : Position.behind (read ++ gap ++ more) = .behind (read ++ gap) := by
    rw [← hplace, hreads.place, hmiddle.position, List.nil_append, ← Position.behind_append]
  have hmore := Position.behind_append_eq hsame
  subst hmore
  have hnil : after.rest = [] := by
    rw [hclosing, List.append_nil, List.append_cancel_left_eq] at hsource
    simpa using hsource
  have hwhole : source = all := by
    have hnew : (new source).rest = source := rfl
    rw [← hnew, hall, hnil, List.append_nil]
  refine ⟨after, hemits, hnil, ?_⟩
  rw [hwhole]
  exact hafter

/-- The last token is read where nothing follows it. -/
theorem item_of_endsInToken {source : Text} {last : Token} (h : EndsInToken source last) :
    last.text ≠ [] ∧
      ∃ before after, itemAt before last.text = .token last.kind last.text.length after := by
  obtain ⟨after, hemits, hnil, -⟩ := emits_of_endsInToken h
  obtain ⟨middle, gap, _, -, hreads, hkind⟩ := hemits.last h.ends
  have hitem := hreads.item
  rw [hnil, List.append_nil] at hitem
  exact ⟨hreads.text_ne_nil hkind, _, _, hitem⟩

/-- A single token with nothing before or behind it. -/
theorem run_single {l : Lexer} {text : Text} {kind : TokenKind} {after : List Interpolation}
    (hrest : l.rest = text) (hitem : itemAt l.nesting text = .token kind text.length after)
    (inside : kind ≠ .endOfInput) (hends : ¬ BeginsGap text) :
    l.run.tokens = [⟨kind, text, l.position⟩] ∧ ∃ eof, l.run.ending = .ok eof := by
  have hreads : l.Reads [] ⟨kind, text, l.position⟩
      ⟨[], l.offset + text.length, l.position.after text, after⟩ := by
    refine ⟨?_, .plain .none, ?_, ?_, rfl, rfl, rfl⟩
    · simp [hrest]
    · simpa using hends
    · simpa using hitem
  obtain ⟨htokens, hending, -⟩ :=
    run_gap (l := ⟨[], l.offset + text.length, l.position.after text, after⟩) (.plain .none)
  rw [run_token hreads.next inside]
  exact ⟨by rw [htokens], hending⟩

end Lexer

/-- A text that ends with such a token as literals do ends solid. -/
theorem EndsInToken.solid {source : Text} {last : Token} (h : EndsInToken source last)
    (hkind : last.kind.endsLiteral = true) : EndsSolid source := by
  obtain ⟨hsome, before, after, hitem⟩ := Lexer.item_of_endsInToken h
  obtain ⟨front, rfl, -⟩ := h.closing
  exact (endsSolid_of_item hitem hkind).append hsome

/-- **A dot behind the last token** is read by itself. -/
theorem tokensOf_dot {source : Text} {last : Token} (h : EndsInToken source last)
    (hsolid : EndsSolid source) :
    tokensOf (source ++ ['.']) =
      .ok ((lexAll source).tokens ++ [⟨.dot .plain, ['.'], .behind source⟩]) := by
  obtain ⟨after, hemits, hnil, hstands⟩ := Lexer.emits_of_endsInToken h
  have hmore : (Lexer.new (source ++ ['.'])).Emits (lexAll source).tokens (after.extend ['.']) := by
    refine hemits.extend ?_
    intro m n gap token hreads inside hsuffix
    obtain ⟨front, hfront⟩ := hsuffix
    have hwhole : EndsSolid (front ++ (token.text ++ n.rest)) := by
      rw [hfront]
      exact hsolid
    exact hreads.dot inside hwhole.of_suffix
  have hrest : (after.extend ['.']).rest = ['.'] := by rw [Lexer.extend, hnil, List.nil_append]
  obtain ⟨htokens, hending⟩ := Lexer.run_single hrest (itemAt_dot (by simp) after.nesting)
    (by decide) (not_beginsGap_of_ne (by decide) (by decide) [])
  rw [tokensOf_eq_ok, lexAll, hmore.run_eq, htokens]
  refine ⟨hending, ?_⟩
  rw [Lexer.extend, hstands.position]

/-- A word by itself. -/
theorem Lexer.run_word {l : Lexer} {word : Text} (hrest : l.rest = word)
    (hword : isPlainName word = true) :
    l.run.tokens = [⟨wordKind word, word, l.position⟩] ∧ ∃ eof, l.run.ending = .ok eof := by
  have hitem := itemAt_plainName (t := []) hword (by simp) l.nesting
  have hends := not_beginsGap_plainName hword []
  rw [List.append_nil] at hitem hends
  exact run_single hrest hitem (by unfold wordKind; split <;> simp) hends

/-- **A word behind the last token**, on the other side of a blank, is read by itself. -/
theorem lexAll_word {source : Text} {last : Token} (h : EndsInToken source last) {word : Text}
    (hword : isPlainName word = true) :
    (lexAll (source ++ ' ' :: word)).tokens =
        (lexAll source).tokens ++ [⟨wordKind word, word, .behind (source ++ [' '])⟩] ∧
      ∃ eof, (lexAll (source ++ ' ' :: word)).ending = .ok eof := by
  obtain ⟨after, hemits, hnil, hstands⟩ := Lexer.emits_of_endsInToken h
  have hmore : (Lexer.new (source ++ ' ' :: word)).Emits (lexAll source).tokens
      (after.extend (' ' :: word)) := by
    refine hemits.extend ?_
    intro m n gap token hreads inside _
    exact hreads.extend inside (Text.glance_append_blank n.rest (by decide) word)
  have hrest : (after.extend (' ' :: word)).rest = [' '] ++ word := by
    rw [Lexer.extend, hnil]
    rfl
  have hgap : IsGap ((after.extend (' ' :: word)).offset == 0) word [' '] :=
    .plain (.blank (by decide) .none)
  have hthrough := Lexer.run_congr (Lexer.next_through hrest hgap (by simp))
  have hlow : ((after.extend (' ' :: word)).skip 1).rest = word := by simp [Lexer.skip, hrest]
  obtain ⟨htokens, hending⟩ := Lexer.run_word hlow hword
  rw [lexAll, hmore.run_eq, hthrough, List.length_singleton, htokens]
  refine ⟨?_, hending⟩
  have hplace : ((after.extend (' ' :: word)).skip 1).position = .behind (source ++ [' ']) := by
    rw [Lexer.skip, hrest]
    simp [Position.behind_append, ← hstands.position, Lexer.extend]
  rw [hplace]

/-! ### The same text elsewhere -/

/-- Where no `#!` line stands a gap is one at any place. -/
theorem IsGap.anywhere {first : Bool} {rest gap : Text} (h : IsGap first rest gap)
    (hmark : first = true → (gap ++ rest).beginsWith ['#', '!'] = false) (other : Bool) :
    IsGap other rest gap := by
  cases h with
  | plain h => exact .plain h
  | @hashBang body t hfirst =>
    have hnone := hmark hfirst
    simp [Text.beginsWith] at hnone

namespace Lexer

theorem Reads.elsewhere {l after m : Lexer} {gap : Text} {token : Token}
    (h : l.Reads gap token after) (hrest : m.rest = l.rest) (hnesting : m.nesting = l.nesting)
    (hmark : l.offset = 0 → l.rest.beginsWith ['#', '!'] = false) :
    m.Reads gap { token with position := m.position.after gap }
      ⟨after.rest, m.offset + (gap ++ token.text).length, m.position.after (gap ++ token.text),
        after.nesting⟩ where
  rest := hrest.trans h.rest
  isGap := by
    apply h.isGap.anywhere
    intro hfirst
    rw [← h.rest]
    exact hmark (by simpa using hfirst)
  ends := h.ends
  item := by
    rw [hnesting]
    exact h.item
  place := rfl
  offset := rfl
  position := rfl

/-- **A text is read as the same words wherever it stands.** -/
theorem run_elsewhere {l m : Lexer} {eof : Token} (hend : l.run.ending = .ok eof)
    (hrest : m.rest = l.rest) (hnesting : m.nesting = l.nesting)
    (hmark : l.offset = 0 → l.rest.beginsWith ['#', '!'] = false) :
    m.run.tokens.map Token.word = l.run.tokens.map Token.word ∧
      ∃ eof, m.run.ending = .ok eof := by
  fun_induction run l generalizing m with
  | case1 l e after hnext => simp at hend
  | case2 l token after hnext atEnd =>
    obtain ⟨gap, hreads⟩ := reads_of_next hnext
    rw [run_end (hreads.elsewhere hrest hnesting hmark).next atEnd]
    exact ⟨rfl, _, rfl⟩
  | case3 l token after hnext inside scan =>
    rename_i ih
    obtain ⟨gap, hreads⟩ := reads_of_next hnext
    have hlater : after.offset ≠ 0 := by
      have hpos := List.length_pos_iff.mpr (hreads.text_ne_nil inside)
      rw [hreads.offset, List.length_append]
      omega
    obtain ⟨hwords, hending⟩ := ih hend
      (m := ⟨after.rest, m.offset + (gap ++ token.text).length,
        m.position.after (gap ++ token.text), after.nesting⟩)
      rfl rfl (fun hzero => absurd hzero hlater)
    rw [run_token (hreads.elsewhere hrest hnesting hmark).next inside]
    refine ⟨?_, hending⟩
    rw [List.map_cons, List.map_cons, hwords]
    rfl

end Lexer

end GroovyShell
