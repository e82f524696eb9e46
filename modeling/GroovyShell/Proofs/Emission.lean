/-
  GroovyShell/Proofs/Emission.lean
  ================================
  **A run of the lexer up to any of its points.**

  `Lexer.run` reads a text to its end.  `Lexer.Emits` is the same run stopped
  behind any of its tokens, with the lexer as it then stands, so that what holds
  in the middle of a text can be spoken of.  The tokens emitted so far do not
  depend on the text behind them that is not yet read: it can be taken away
  (`Emits.withdraw`).
-/
import GroovyShell.Proofs.Rereading

namespace GroovyShell

namespace Lexer

/-- `l.Emits tokens after`: readings of `l` yield `tokens` one after another, none
    of them the end of the input, and leave the lexer as `after`. -/
inductive Emits : Lexer → List Token → Lexer → Prop
  | nothing (l : Lexer) : Emits l [] l
  | token {l middle after : Lexer} {token : Token} {tokens : List Token} :
      l.next = (.ok token, middle) → token.kind ≠ .endOfInput → Emits middle tokens after →
        Emits l (token :: tokens) after

/-- The points of a run are those behind so many of its tokens. -/
theorem emits_take (l : Lexer) (n : Nat) : ∃ after, l.Emits (l.run.tokens.take n) after := by
  fun_induction run l generalizing n with
  | case1 l e after hnext =>
    rw [List.take_nil]
    exact ⟨l, .nothing l⟩
  | case2 l token after hnext atEnd =>
    rw [List.take_nil]
    exact ⟨l, .nothing l⟩
  | case3 l token after hnext inside scan ih =>
    cases n with
    | zero => exact ⟨l, .nothing l⟩
    | succ n =>
      obtain ⟨last, hlast⟩ := ih n
      exact ⟨last, .token hnext inside hlast⟩

/-- Behind its last token a run ends with the next reading. -/
theorem emits_run (l : Lexer) :
    ∃ last, l.Emits l.run.tokens last ∧ last.next = (l.run.ending, l.run.lexer) := by
  fun_induction run l with
  | case1 l e after hnext => exact ⟨l, .nothing l, hnext⟩
  | case2 l token after hnext atEnd => exact ⟨l, .nothing l, hnext⟩
  | case3 l token after hnext inside scan ih =>
    obtain ⟨last, hlast, hending⟩ := ih
    exact ⟨last, .token hnext inside hlast, hending⟩

namespace Emits

variable {l after : Lexer} {tokens : List Token}

/-- From any of its points a run goes on as the run from there. -/
theorem run_eq (h : l.Emits tokens after) :
    l.run = { after.run with tokens := tokens ++ after.run.tokens } := by
  induction h with
  | nothing l => rfl
  | token hnext hkind _ ih =>
    rw [run_token hnext hkind, ih]
    rfl

/-- Behind the tokens the place is again the one behind all that has been read. -/
theorem stands {before : Text} (h : l.Emits tokens after) (hl : l.Stands before) :
    ∃ read, l.rest = read ++ after.rest ∧ after.Stands (before ++ read) := by
  induction h generalizing before with
  | nothing l =>
    refine ⟨[], rfl, ?_⟩
    rw [List.append_nil]
    exact hl
  | @token l middle after token tokens hnext hkind _ ih =>
    obtain ⟨gap, hrest, -, -, -, -, -, hmiddle⟩ := next_token hl hnext hkind
    obtain ⟨read, hread, hafter⟩ := ih hmiddle
    refine ⟨gap ++ token.text ++ read, ?_, ?_⟩
    · rw [hrest, hread, List.append_assoc _ read]
    · rw [← List.append_assoc, ← List.append_assoc]
      exact hafter

theorem rest_suffix (h : l.Emits tokens after) : ∃ read, l.rest = read ++ after.rest := by
  induction h with
  | nothing l => exact ⟨[], rfl⟩
  | @token l middle after token tokens hnext _ _ ih =>
    obtain ⟨gap, hreads⟩ := reads_of_next hnext
    obtain ⟨read, hread⟩ := ih
    refine ⟨gap ++ (token.text ++ read), ?_⟩
    rw [hreads.rest, hread, List.append_assoc, List.append_assoc]

end Emits

/-! ### Taking away what is not read -/

/-- A token is read the same without what stands behind the rest. -/
theorem Reads.withdraw {l after : Lexer} {gap more : Text} {token : Token}
    (h : (l.extend more).Reads gap token (after.extend more)) (inside : token.kind ≠ .endOfInput)
    (hrest : l.rest = gap ++ (token.text ++ after.rest)) : l.Reads gap token after := by
  have hsome := h.text_ne_nil inside
  have hglance : after.rest.glance <+: (after.extend more).rest.glance :=
    Text.glance_mono (List.prefix_append after.rest more)
  constructor
  · exact hrest
  · apply h.isGap.congr
    obtain ⟨c, tail, htext⟩ := List.exists_cons_of_ne_nil hsome
    rw [htext]
    rfl
  · intro hbegins
    exact h.ends (hbegins.of_glance hglance hsome)
  · exact itemAt_of_glance h.item inside hglance
  · exact h.place
  · exact h.offset
  · exact h.position

/-- **What has been emitted does not depend on what is still to be read.** -/
theorem Emits.withdraw {l after : Lexer} {more : Text} {tokens : List Token}
    (h : (l.extend more).Emits tokens (after.extend more)) : l.Emits tokens after := by
  generalize hl : l.extend more = whole at h
  generalize ha : after.extend more = last at h
  induction h generalizing l with
  | nothing whole =>
    subst ha
    have hsame : l = after := by
      obtain ⟨rest, offset, position, nesting⟩ := l
      simp only [extend, Lexer.mk.injEq, List.append_cancel_right_eq] at hl
      obtain ⟨rfl, rfl, rfl, rfl⟩ := hl
      rfl
    rw [hsame]
    exact .nothing after
  | @token whole middle last token tokens hnext hkind hmore ih =>
    subst hl ha
    obtain ⟨gap, hreads⟩ := reads_of_next hnext
    obtain ⟨read, hread⟩ := hmore.rest_suffix
    have hmiddle : ({ middle with rest := read ++ after.rest } : Lexer).extend more = middle := by
      simp only [extend, List.append_assoc]
      rw [show after.rest ++ more = (after.extend more).rest from rfl, ← hread]
    rw [← hmiddle] at hreads
    refine .token (hreads.withdraw hkind ?_).next hkind (ih hmiddle rfl)
    have hrest := hreads.rest
    simp only [extend, ← List.append_assoc, List.append_cancel_right_eq] at hrest
    simpa only [List.append_assoc] using hrest

end Lexer

/-! ### A text that ends at a gap -/

/-- A gap is one too where the text ends with it. -/
theorem GapText.atEnd {rest gap : Text} (h : GapText rest gap) : GapText [] gap := by
  induction h with
  | none => exact .none
  | blank hc _ ih => exact .blank hc ih
  | @lineComment body t hbody hend _ ih =>
    refine .lineComment hbody ?_ ih
    intro c hc
    rw [List.append_nil] at hc
    apply hend
    rw [List.head?_append, hc]
    rfl
  | blockComment hbody _ ih => exact .blockComment hbody ih

theorem IsGap.atEnd {first : Bool} {rest gap : Text} (h : IsGap first rest gap) :
    IsGap first [] gap := by
  cases h with
  | plain h => exact .plain h.atEnd
  | @hashBang body t hfirst hbody hend h =>
    refine .hashBang hfirst hbody ?_ h.atEnd
    intro c hc
    rw [List.append_nil] at hc
    apply hend
    rw [List.head?_append, hc]
    rfl

namespace Lexer

/-- Where nothing but a gap is left the run ends. -/
theorem run_gap {l : Lexer} (h : IsGap (l.offset == 0) [] l.rest) :
    l.run.tokens = [] ∧ (∃ eof, l.run.ending = .ok eof) ∧ l.run.lexer.nesting = l.nesting := by
  have hreads : l.Reads l.rest ⟨.endOfInput, [], l.position.after l.rest⟩
      ⟨[], l.offset + l.rest.length, l.position.after l.rest, l.nesting⟩ := by
    constructor
    · simp
    · exact h
    · exact not_beginsGap_nil
    · rfl
    · rfl
    · simp
    · simp
  rw [run_end hreads.next rfl]
  exact ⟨rfl, ⟨_, rfl⟩, rfl⟩

/-- **A text cut behind the gap that follows some of its tokens** is read to its
    end, and these are its tokens. -/
theorem Emits.run_cut {front gap rest : Text} {tokens : List Token} {last : Lexer}
    (h : (new (front ++ (gap ++ rest))).Emits tokens last) (hrest : last.rest = gap ++ rest)
    (hgap : IsGap (last.offset == 0) rest gap) :
    (lexAll (front ++ gap)).tokens = tokens ∧ (∃ eof, (lexAll (front ++ gap)).ending = .ok eof) ∧
      (lexAll (front ++ gap)).lexer.nesting = last.nesting := by
  have hcut : ({ last with rest := gap } : Lexer).extend rest = last := by
    rw [extend, ← hrest]
  have hwhole : (new (front ++ gap)).extend rest = new (front ++ (gap ++ rest)) := by
    simp [extend, new]
  rw [← hwhole, ← hcut] at h
  have hemits := h.withdraw
  obtain ⟨hnone, hending, hnesting⟩ := run_gap (l := { last with rest := gap }) hgap.atEnd
  rw [lexAll, hemits.run_eq]
  refine ⟨?_, hending, hnesting⟩
  rw [hnone, List.append_nil]

end Lexer

end GroovyShell
