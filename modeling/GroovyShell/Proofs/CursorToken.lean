/-
  GroovyShell/Proofs/CursorToken.lean
  ===================================
  **Where the last token before the cursor stands.**

  Completion takes what is being typed from the last token, and the column from
  which it replaces from the place of that token.  Here both are found again in
  the line itself: in front of the token the line has as many characters as the
  column says, and between the token and the cursor there is a gap.
-/
import GroovyShell.Completion.Cursor
import GroovyShell.Proofs.Layout

namespace GroovyShell

/-! ### Gaps behind a token -/

theorem IsGap.gapText {rest gap : Text} (h : IsGap false rest gap) : GapText rest gap := by
  cases h with
  | plain h => exact h
  | hashBang h => simp at h

/-- A gap begins with white space or with the first mark of a comment. -/
theorem GapText.head_mark {rest gap : Text} (h : GapText rest gap) (hsome : gap ≠ []) :
    ∃ c ∈ gap.head?, isBlank c = true ∨ c = '/' := by
  cases h with
  | none => exact absurd rfl hsome
  | blank hc _ => exact ⟨_, rfl, .inl hc⟩
  | lineComment _ _ _ => exact ⟨'/', rfl, .inr rfl⟩
  | blockComment _ _ => exact ⟨'/', rfl, .inr rfl⟩

/-! ### The last token of a layout -/

namespace LaidOut

theorem inside {before t : Text} {nesting : List Interpolation} {tokens : List Token}
    {ending : Except LexError Token} (h : LaidOut before nesting t tokens ending) :
    ∀ token ∈ tokens, token.kind ≠ .endOfInput := by
  induction h with
  | token _ _ _ hkind _ _ ih =>
    intro token htoken
    rcases List.mem_cons.mp htoken with rfl | htoken
    · exact hkind
    · exact ih token htoken
  | _ =>
    intro token htoken
    simp at htoken

/-- A layout that reaches the end of the text says where that is. -/
theorem finish {before t : Text} {nesting : List Interpolation} {tokens : List Token}
    {ending : Except LexError Token} {eof : Token} (h : LaidOut before nesting t tokens ending)
    (hending : ending = .ok eof) :
    eof.kind = .endOfInput ∧ eof.position = .behind (before ++ t) := by
  induction h with
  | token _ _ _ _ _ _ ih =>
    obtain ⟨hkind, hposition⟩ := ih hending
    refine ⟨hkind, ?_⟩
    rw [hposition]
    simp only [List.append_assoc]
  | finished _ =>
    obtain rfl := Except.ok.inj hending
    exact ⟨rfl, rfl⟩
  | _ => simp at hending

/-- Behind the last token a text that is read to its end has nothing but a gap. -/
theorem last_token {before t : Text} {nesting : List Interpolation} {tokens : List Token}
    {ending : Except LexError Token} {last eof : Token}
    (h : LaidOut before nesting t tokens ending) (hending : ending = .ok eof)
    (hlast : tokens.getLast? = some last) :
    ∃ front gap, before ++ t = front ++ last.text ++ gap ∧ last.position = .behind front ∧
      GapText [] gap := by
  induction h with
  | @token before gap rest nesting token tokens ending _ _ hsome _ hposition hrest ih =>
    rcases tokens with _ | ⟨next, tokens⟩
    · rw [List.getLast?_singleton, Option.some.injEq] at hlast
      subst hlast
      cases hrest with
      | finished hgap =>
        have hbehind : (before ++ gap ++ token.text).isEmpty = false := by simp [hsome]
        rw [hbehind] at hgap
        refine ⟨before ++ gap, rest, ?_, hposition, hgap.gapText⟩
        simp only [List.append_assoc]
      | _ => simp at hending
    · rw [List.getLast?_cons_cons] at hlast
      obtain ⟨front, gap, ht, hplace, hgap⟩ := ih hending hlast
      refine ⟨front, gap, ?_, hplace, hgap⟩
      rw [← ht]
      simp only [List.append_assoc]
  | _ => simp at hlast

end LaidOut

/-! ### The last token and the cursor -/

/-- The cursor is behind tokens only where everything has been read, and the last
    token is not on an earlier line. -/
theorem placeFrom_after {line : Text} {prior : Nat} {opened : Int} {seen tokens : List Token}
    {ending : Except LexError Token} {stream : TokenStream}
    (hinside : ∀ token ∈ tokens, token.kind ≠ .endOfInput)
    (hfinish : ∀ eof, ending = .ok eof → eof.kind = .endOfInput)
    (h : placeFrom line prior opened seen (tokens.map .ok ++ [ending]) = .after stream) :
    ∃ eof, ending = .ok eof ∧ tokens.reverse ++ seen = stream.last :: stream.earlier ∧
      eof.position.line ≤ stream.last.position.line := by
  induction tokens generalizing opened seen with
  | nil =>
    rcases ending with e | eof
    · simp only [List.map_nil, List.nil_append, placeFrom, placeAtFailure] at h
      split at h
      · simp at h
      · split at h <;> simp at h
    · simp only [List.map_nil, List.nil_append, placeFrom, hfinish eof rfl, if_true] at h
      rcases seen with _ | ⟨last, earlier⟩
      · simp [placeAtEnd] at h
      · simp only [placeAtEnd] at h
        split at h
        · simp at h
        · rename_i hline
          simp only [CursorPlace.after.injEq] at h
          subst h
          exact ⟨eof, rfl, rfl, Nat.le_of_not_lt hline⟩
  | cons token tokens ih =>
    have hkind : token.kind ≠ .endOfInput := hinside token List.mem_cons_self
    simp only [List.map_cons, List.cons_append, placeFrom, if_neg hkind] at h
    obtain ⟨eof, hending, hseen, hline⟩ :=
      ih (fun other hother => hinside other (List.mem_cons_of_mem _ hother)) h
    refine ⟨eof, hending, ?_, hline⟩
    rw [List.reverse_cons, List.append_assoc]
    exact hseen

theorem Text.lastPart_below (prior : List Text) {line : Text} (h : '\n' ∉ line) :
    Text.lastPart '\n' (Text.below prior line) = line := by
  induction prior with
  | nil => exact lastPart_of_not_mem h
  | cons first prior ih =>
    have hbelow : below (first :: prior) line = first ++ '\n' :: below prior line := by
      simp [below]
    rw [hbelow, lastPart_append_mark, ih]

theorem Text.count_below {prior : List Text} {line : Text} (hprior : ∀ p ∈ prior, '\n' ∉ p)
    (hline : '\n' ∉ line) : (Text.below prior line).count '\n' = prior.length := by
  induction prior with
  | nil => exact List.count_eq_zero.mpr hline
  | cons first prior ih =>
    have hbelow : below (first :: prior) line = first ++ '\n' :: below prior line := by
      simp [below]
    have hfirst := List.count_eq_zero.mpr (hprior first List.mem_cons_self)
    rw [hbelow, List.count_append, hfirst, List.count_cons_self,
      ih fun p hp => hprior p (List.mem_cons_of_mem _ hp), List.length_cons]
    omega

/-- What stands behind a place in the last line is the end of that line. -/
theorem Text.cut_below {prior : List Text} {line front rest : Text}
    (hprior : ∀ p ∈ prior, '\n' ∉ p) (hline : '\n' ∉ line)
    (hsource : Text.below prior line = front ++ rest)
    (hrow : prior.length + 1 ≤ (Position.behind front).line) :
    ∃ left, line = left ++ rest ∧ front = Text.below prior left ∧
      Position.behind front = ⟨prior.length + 1, left.length + 1⟩ := by
  have hcount := count_below hprior hline
  rw [hsource, List.count_append] at hcount
  simp only [Position.behind] at hrow
  have hrest : '\n' ∉ rest := by
    rw [← List.count_eq_zero]
    omega
  have hsplit : line = front.lastPart '\n' ++ rest := by
    rw [← lastPart_below prior hline, hsource, lastPart_append '\n' front hrest]
  refine ⟨front.lastPart '\n', hsplit, ?_, ?_⟩
  · rw [hsplit, below, ← List.append_assoc, List.append_cancel_right_eq] at hsource
    exact hsource.symm
  · rw [Position.behind, Position.mk.injEq]
    constructor
    · omega
    · omega

/-- Behind the last token a text that leads to a place behind tokens has only a
    gap, and the token begins no line before the last. -/
theorem cursorPlace_last {prior : List Text} {line : Text} {stream : TokenStream}
    (h : cursorPlace prior line = .after stream) :
    ∃ front gap, Text.below prior line = front ++ (stream.last.text ++ gap) ∧
      stream.last.position = .behind front ∧ GapText [] gap ∧
      (Position.behind (Text.below prior line)).line ≤ (Position.behind front).line ∧
      stream.last ∈ (lexAll (Text.below prior line)).tokens := by
  have hlaid : LaidOut [] [] (Text.below prior line) (lexAll (Text.below prior line)).tokens
      (lexAll (Text.below prior line)).ending :=
    Lexer.run_laidOut (Lexer.stands_new _)
  obtain ⟨eof, hending, htokens, hrow⟩ := placeFrom_after hlaid.inside
    (fun eof hending => (hlaid.finish hending).1) h
  have hlast : (lexAll (Text.below prior line)).tokens.getLast? = some stream.last := by
    rw [← List.head?_reverse, ← List.append_nil (List.reverse _), htokens]
    rfl
  obtain ⟨front, gap, hsource, hposition, hgap⟩ := hlaid.last_token hending hlast
  rw [(hlaid.finish hending).2, hposition] at hrow
  rw [List.nil_append] at hsource hrow
  refine ⟨front, gap, ?_, hposition, hgap, hrow, List.mem_of_getLast? hlast⟩
  rw [hsource, List.append_assoc]

/-- **The last token stands in the line that is being typed**, at its column, and
    from there to the cursor there is a gap. -/
theorem cursorPlace_after {prior : List Text} {line : Text} {stream : TokenStream}
    (hline : '\n' ∉ line) (h : cursorPlace prior line = .after stream) :
    ∃ front trailing, line = front ++ stream.last.text ++ trailing ∧
      stream.last.position.column = 1 + front.length ∧ GapText [] trailing := by
  obtain ⟨front, gap, hsource, hposition, hgap, hrow, -⟩ := cursorPlace_last h
  have hnone : '\n' ∉ stream.last.text ++ gap := by
    rw [hsource] at hrow
    simp only [Position.behind, List.count_append] at hrow
    rw [← List.count_eq_zero, List.count_append]
    omega
  refine ⟨front.lastPart '\n', gap, ?_, ?_, hgap⟩
  · rw [← Text.lastPart_below prior hline, hsource, Text.lastPart_append '\n' front hnone,
      List.append_assoc]
  · rw [hposition]
    rfl

end GroovyShell
