/-
  GroovyShell/Proofs/OpenStrings.lean
  ===================================
  **Which open strings keep a statement pending.**

  Whether a further line can close an open string is judged from the text at the
  place of the failure alone.  For a string in its first part this is the quotes
  that delimit it.  For a part that an interpolation was closed before it is the
  closing brace, which does not say how the string is delimited: such a string is
  taken for one that cannot go on, even between three quotes.
-/
import GroovyShell.Proofs.Layout
import GroovyShell.Proofs.Runs

namespace GroovyShell

/-! ### Where reading stops -/

/-- The interpolations open behind some tokens, given those open before them. -/
def nestingAfter (nesting : List Interpolation) (tokens : List Token) : List Interpolation :=
  tokens.foldl (fun nesting token => token.nestingAfter nesting) nesting

/-- `StopsInString source triple resumed`: reading `source` stops in a string
    without an end, in its first part or in one resumed behind an interpolation.
    `triple` says whether three quotes delimit the string. -/
def StopsInString (source : Text) (triple resumed : Bool) : Prop :=
  ∃ before rest, source = before ++ rest ∧
    (lexAll source).ending = .error (.at .unterminatedString (.behind before)) ∧
    StringAhead (nestingAfter [] (lexAll source).tokens) rest triple resumed

theorem LaidOut.string_ahead {before t : Text} {nesting : List Interpolation} {tokens : List Token}
    {ending : Except LexError Token} {e : LexError} (h : LaidOut before nesting t tokens ending)
    (hending : ending = .error e) (hfault : e.fault = .unterminatedString) :
    ∃ front rest triple resumed, before ++ t = front ++ rest ∧
      e = .at .unterminatedString (.behind front) ∧
      StringAhead (nestingAfter nesting tokens) rest triple resumed := by
  induction h with
  | token _ _ _ _ _ _ ih =>
    obtain ⟨front, rest, triple, resumed, ht, he, hahead⟩ := ih hending
    refine ⟨front, rest, triple, resumed, ?_, he, hahead⟩
    rw [← ht]
    simp only [List.append_assoc]
  | finished => simp at hending
  | openComment =>
    rw [← Except.error.inj hending] at hfault
    simp [LexError.at] at hfault
  | openString _ _ hahead =>
    refine ⟨_, _, _, _, ?_, (Except.error.inj hending).symm, hahead⟩
    rw [List.append_assoc]
  | unexpected =>
    rw [← Except.error.inj hending] at hfault
    simp [LexError.at] at hfault

/-- There is no other way to stop with an open string. -/
theorem stopsInString_of_ending {source : Text} {e : LexError}
    (h : (lexAll source).ending = .error e) (hfault : e.fault = .unterminatedString) :
    ∃ triple resumed, StopsInString source triple resumed := by
  have hlaid := Lexer.run_laidOut (Lexer.stands_new source)
  obtain ⟨front, rest, triple, resumed, ht, rfl, hahead⟩ := hlaid.string_ahead h hfault
  exact ⟨triple, resumed, front, rest, ht, h, hahead⟩

/-! ### What is judged there -/

/-- The quotes are looked for where the string begins or is resumed. -/
theorem StringAhead.shows_quotes {nesting : List Interpolation} {t : Text} {triple resumed : Bool}
    (h : StringAhead nesting t triple resumed) :
    (t.beginsWith ['\'', '\'', '\''] || t.beginsWith ['"', '"', '"']) = (triple && !resumed) := by
  cases h with
  | @opened quote t hquote =>
    rcases hquote with rfl | rfl
    · simp [Text.beginsWith, List.isPrefixOf]
    · simp [Text.beginsWith, List.isPrefixOf]
  | resumed => simp [Text.beginsWith, List.isPrefixOf]

theorem StringAhead.not_blank {nesting : List Interpolation} {t : Text} {triple resumed : Bool}
    (h : StringAhead nesting t triple resumed) : t.isBlankOnly = false := by
  have hmarks : isBlank '\'' = false ∧ isBlank '"' = false ∧ isBlank '\x7d' = false := by decide
  obtain ⟨hsingle, hdouble, hbrace⟩ := hmarks
  cases h with
  | opened hquote =>
    rcases hquote with rfl | rfl
    · simp [Text.isBlankOnly, hsingle]
    · simp [Text.isBlankOnly, hdouble]
  | resumed => simp [Text.isBlankOnly, hbrace]

theorem StopsInString.completeness_eq {source : Text} {triple resumed : Bool}
    (h : StopsInString source triple resumed) :
    completeness source = if triple && !resumed then .incomplete else .complete := by
  obtain ⟨before, rest, rfl, hending, hahead⟩ := h
  have hblank : (before ++ rest).isBlankOnly = false := by
    rw [Text.isBlankOnly_append, hahead.not_blank, Bool.and_false]
  have hjudged : (LexError.at .unterminatedString (.behind before)).canContinue (before ++ rest) =
      (triple && !resumed) := by
    simp only [LexError.canContinue, LexError.at, Text.startingAt_behind]
    exact hahead.shows_quotes
  simp only [completeness, hblank, hending, hjudged]
  rfl

/-- **Which open strings keep a statement pending.**  Those between three quotes
    do in their first part, and there only: a part resumed behind an interpolation
    counts as finished, as a string between single quotes does. -/
theorem open_string_pending (source : Text) :
    (∀ e, (lexAll source).ending = .error e → e.fault = .unterminatedString →
        ∃ triple resumed, StopsInString source triple resumed) ∧
      ∀ triple resumed, StopsInString source triple resumed →
        (completeness source = if triple && !resumed then .incomplete else .complete) ∧
          ∀ (r : Repl) (line : Text), r.role line = .groovy →
            r.session.statementWith line = source →
              (r.process line).2 =
                .ok (if triple && !resumed then .buffered else .recorded source) := by
  constructor
  · intro e hending hfault
    exact stopsInString_of_ending hending hfault
  · intro triple resumed hstops
    refine ⟨hstops.completeness_eq, ?_⟩
    rintro r line hgroovy rfl
    rw [Repl.process_verdict hgroovy, hstops.completeness_eq]
    cases hpending : triple && !resumed with
    | true => rfl
    | false => rfl

theorem stopsInString_first : StopsInString "x = '''a".toList true false :=
  ⟨"x = ".toList, "'''a".toList, rfl, by decide +kernel, .opened (.inl rfl)⟩

theorem stopsInString_resumed : StopsInString "\"\"\"$\x7bx\x7d a".toList true true :=
  ⟨"\"\"\"$\x7bx".toList, "\x7d a".toList, by decide, by decide +kernel,
    @StringAhead.resumed _ true [] _ (by decide +kernel)⟩

/-- Both parts of a string between three quotes occur, and are judged differently. -/
theorem open_string_pending_parts :
    completeness "x = '''a".toList = .incomplete ∧
      completeness "\"\"\"$\x7bx\x7d a".toList = .complete :=
  ⟨((open_string_pending _).2 true false stopsInString_first).1,
    ((open_string_pending _).2 true true stopsInString_resumed).1⟩

end GroovyShell
