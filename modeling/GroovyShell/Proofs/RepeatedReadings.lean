/-
  GroovyShell/Proofs/RepeatedReadings.lean
  ========================================
  **A lexer that is asked again and again.**

  Nobody has to stop asking at the end of the text or at a failure.  A reading
  that goes on, be it to a token or to a string or comment without an end, takes
  something off the rest (`Lexer.next_advances`).  Any other reading is the last that
  brings anything new: the lexer stands where it read, and reads the same there for
  ever (`Lexer.next_settles`).  So a text has no more readings of the first kind than
  characters, and reading it to its end stops in time.
-/
import GroovyShell.Proofs.PrefixTokens
import Mathlib.Logic.Function.Iterate

namespace GroovyShell

/-! ### What a reading brings -/

/-- Whether something was read: a token with text, or a string or a comment of which
    no end was found. -/
def goesOn : Except LexError Token → Bool
  | .ok token => token.kind ≠ .endOfInput
  | .error e => e.fault = .unterminatedString ∨ e.fault = .unterminatedComment

/-- Whether the text ended, or no token begins where it was to go on. -/
def settles : Except LexError Token → Bool
  | .ok token => token.kind = .endOfInput
  | .error ⟨.unexpectedChar _, _⟩ => true
  | .error _ => false

namespace Lexer

/-- The lexer after so many readings, whatever they brought. -/
def afterReadings (l : Lexer) (k : Nat) : Lexer := (fun l : Lexer => l.next.2)^[k] l

/-- What a reading brings, counted from zero. -/
def reading (l : Lexer) (k : Nat) : Except LexError Token := (l.afterReadings k).next.1

theorem afterReadings_succ (l : Lexer) (k : Nat) :
    l.afterReadings (k + 1) = (l.afterReadings k).next.2 :=
  Function.iterate_succ_apply' _ k l

theorem afterReadings_next (l : Lexer) (k : Nat) :
    l.afterReadings (k + 1) = l.next.2.afterReadings k :=
  Function.iterate_succ_apply _ k l

theorem reading_next (l : Lexer) (k : Nat) : l.reading (k + 1) = l.next.2.reading k := by
  rw [reading, reading, afterReadings_next]

/-! ### What a reading takes off the rest -/

/-- `l.Advances read after`: `after` stands behind `read`, with which the rest of `l`
    begins. -/
structure Advances (l : Lexer) (read : Text) (after : Lexer) : Prop where
  rest : l.rest = read ++ after.rest
  offset : after.offset = l.offset + read.length
  position : after.position = l.position.after read

theorem advances_skip (l : Lexer) (n : Nat) : l.Advances (l.rest.take n) (l.skip n) where
  rest := (List.take_append_drop n l.rest).symm
  offset := rfl
  position := rfl

theorem Advances.trans {l middle after : Lexer} {front read : Text} (hl : l.Advances front middle)
    (hmiddle : middle.Advances read after) : l.Advances (front ++ read) after where
  rest := by rw [hl.rest, hmiddle.rest, List.append_assoc]
  offset := by rw [hmiddle.offset, hl.offset, List.length_append, Nat.add_assoc]
  position := by rw [hmiddle.position, hl.position, Position.after_append]

/-- What is open makes no difference to where a lexer stands. -/
theorem Advances.nested {l after : Lexer} {read : Text} (h : l.Advances read after)
    (nesting : List Interpolation) : l.Advances read { after with nesting } :=
  ⟨h.rest, h.offset, h.position⟩

/-- A string without an end has at least the mark it begins or goes on with. -/
theorem itemAt_unterminated_pos {nesting after : List Interpolation} {t : Text} {n : Nat}
    (h : itemAt nesting t = .unterminated n after) : 0 < n ∧ t ≠ [] := by
  have hpart : ∀ (style : StringStyle) (read : Nat) (body : Text), 0 < read →
      style.partFrom read body = .unterminated n → 0 < n := by
    intro style read body hread hends
    have hge := partFrom_ge style read body
    rw [hends, StringPart.length] at hge
    omega
  rcases t with _ | ⟨c, t⟩
  · simp [itemAt] at h
  refine ⟨?_, by simp⟩
  cases itemAt_head h with
  | brace hitem _ _ => simp at hitem
  | resumed hitem _ _ =>
    apply hpart _ 1 _ Nat.one_pos
    exact (stringItem_unterminated hitem.symm).1
  | quoted hitem _ =>
    apply hpart _ _ _ (StringStyle.delimiter_length_pos _)
    exact (stringItem_unterminated hitem.symm).1
  | plain hitem _ => simp at hitem
  | unexpected hitem => simp at hitem

theorem readItem_advances (l : Lexer) :
    ∃ read, l.Advances read l.readItem.2 ∧ (goesOn l.readItem.1 = true → read ≠ []) := by
  unfold readItem
  split
  · rename_i kind length nesting hitem
    refine ⟨_, (l.advances_skip length).nested nesting, ?_⟩
    intro hgoes hnone
    have hkind : kind ≠ .endOfInput := by simpa [goesOn] using hgoes
    obtain ⟨hlength, hrest⟩ := itemAt_token hitem hkind
    have hzero := congrArg List.length hnone
    rw [List.length_take, List.length_nil] at hzero
    omega
  · rename_i length nesting hitem
    refine ⟨_, (l.advances_skip length).nested nesting, ?_⟩
    intro _ hnone
    obtain ⟨hlength, hrest⟩ := itemAt_unterminated_pos hitem
    rcases List.take_eq_nil_iff.mp hnone with hzero | hnil
    · omega
    · exact hrest hnil
  · refine ⟨[], ⟨rfl, rfl, rfl⟩, ?_⟩
    intro hgoes
    simp [goesOn, LexError.at] at hgoes

/-- **One reading.**  It moves the lexer over a piece of the rest, which is not empty
    if something was read. -/
theorem next_advances (l : Lexer) :
    ∃ read, l.Advances read l.next.2 ∧ (goesOn l.next.1 = true → read ≠ []) := by
  obtain ⟨front, rest, hrest, -, hresult⟩ := gap_measures (l.offset == 0) l.rest
  rcases hresult with ⟨hclosed, -⟩ | ⟨hopen, body, rfl, -⟩
  · have hnext : l.next = (l.skip front.length).readItem := by
      rw [next, hclosed, Nat.zero_add]
      rfl
    obtain ⟨read, hread, hsome⟩ := (l.skip front.length).readItem_advances
    rw [hnext]
    refine ⟨_, (l.advances_skip front.length).trans hread, ?_⟩
    intro hgoes
    exact List.append_ne_nil_of_right_ne_nil _ (hsome hgoes)
  · rw [next, hopen]
    refine ⟨_, l.advances_skip l.rest.length, ?_⟩
    intro _
    rw [List.take_length, hrest]
    simp

/-! ### Where nothing more is read -/

/-- Every reading is of one of two kinds. -/
theorem settles_of_not_goesOn (l : Lexer) (h : goesOn l.next.1 = false) :
    settles l.next.1 = true := by
  cases hnext : l.next with
  | mk result after =>
    rw [hnext] at h
    cases result with
    | ok token => simpa [goesOn, settles] using h
    | error e =>
      obtain ⟨gap, rest, hfails, he⟩ := fails_of_next hnext
      have hfault := hfails.failsAt
      obtain ⟨fault, position⟩ := e
      cases hfault with
      | comment => simp [goesOn] at h
      | string => simp [goesOn] at h
      | char => rfl

/-- The end of the text is read again where it has been read. -/
theorem Reads.end_again {l after : Lexer} {gap : Text} {token : Token}
    (h : l.Reads gap token after) (atEnd : token.kind = .endOfInput) :
    after.next = (.ok token, after) := by
  have hitem := h.item
  rw [atEnd] at hitem
  have hnil := itemAt_end hitem
  obtain ⟨htext, hrest⟩ := List.append_eq_nil_iff.mp hnil
  have hagain : after.Reads [] token after := by
    constructor
    · rw [hnil, hrest, List.append_nil]
    · exact .plain .none
    · exact h.ends
    · rw [hnil, htext, atEnd]
      rfl
    · rw [h.place, h.position, htext, List.append_nil]
      rfl
    · rw [htext]
      rfl
    · rw [htext]
      rfl
  exact hagain.next

/-- A character that begins no token is met again where it has been met. -/
theorem Fails.char_again {l : Lexer} {gap rest : Text} {c : Char}
    (h : l.Fails gap rest (.unexpectedChar c)) :
    l.next = (.error (.at (.unexpectedChar c) (l.position.after gap)), l.skip gap.length) ∧
      (l.skip gap.length).next = l.next := by
  have hhere : (l.skip gap.length).rest = rest := by simp [skip, h.rest]
  have hplace : (l.skip gap.length).position = l.position.after gap := by simp [skip, h.rest]
  have hnesting : (l.skip gap.length).nesting = l.nesting := rfl
  have hoffset : (l.skip gap.length).offset = l.offset + gap.length := by simp [skip, h.rest]
  have hitem : itemAt l.nesting rest = .unexpected c := by
    cases h.failsAt with
    | char hitem => exact hitem
  have hends := h.ends (by simp)
  have hfirst := next_behind h.rest h.isGap hends h.unmarked
  have hagain : (l.skip gap.length).next = (l.skip gap.length).readItem := by
    apply next_at
    · rw [hhere]
      exact hends
    · intro hstart
      have hnone : gap = [] := List.length_eq_zero_iff.mp (by omega)
      rw [hhere]
      exact h.unmarked (by omega) hnone
  refine ⟨?_, by rw [hagain, hfirst]⟩
  rw [hfirst, readItem, hhere, hnesting, hitem, hplace]

/-- **Nothing new is read behind the end or a character that begins no token.**  The
    lexer reads the same there again, and nothing is opened or closed. -/
theorem next_settles (l : Lexer) (h : settles l.next.1 = true) :
    l.next.2.next = l.next ∧ l.next.2.nesting = l.nesting := by
  cases hnext : l.next with
  | mk result after =>
    rw [hnext] at h
    cases result with
    | ok token =>
      have hend : token.kind = .endOfInput := by simpa [settles] using h
      obtain ⟨gap, hreads⟩ := reads_of_next hnext
      exact ⟨hreads.end_again hend, (hreads.atEnd hend).2.2⟩
    | error e =>
      obtain ⟨gap, rest, hfails, -⟩ := fails_of_next hnext
      obtain ⟨fault, position⟩ := e
      cases fault with
      | unexpectedChar c =>
        obtain ⟨hfirst, hagain⟩ := hfails.char_again
        rw [hnext, Prod.mk.injEq] at hfirst
        obtain ⟨-, rfl⟩ := hfirst
        exact ⟨hagain.trans hnext, rfl⟩
      | unterminatedString => simp [settles] at h
      | unterminatedComment => simp [settles] at h
      | internal message => simp [settles] at h

/-! ### Many readings -/

/-- From a reading that brings nothing new on, the lexer stays as it is. -/
theorem afterReadings_settled {l : Lexer} {k j : Nat} (h : settles (l.reading k) = true)
    (hlater : k < j) : l.afterReadings j = l.afterReadings (k + 1) ∧ l.reading j = l.reading k := by
  obtain ⟨hagain, -⟩ := next_settles _ h
  rw [← afterReadings_succ] at hagain
  have hstays : ∀ n, l.afterReadings (k + 1 + n) = l.afterReadings (k + 1) := by
    intro n
    induction n with
    | zero => rfl
    | succ n ih => rw [← Nat.add_assoc, afterReadings_succ, ih, hagain, ← afterReadings_succ]
  have hsplit : j = k + 1 + (j - (k + 1)) := by omega
  have hj := hstays (j - (k + 1))
  rw [← hsplit] at hj
  refine ⟨hj, ?_⟩
  rw [reading, hj, hagain]
  rfl

/-- The readings that go on are paid for with characters. -/
theorem countP_goesOn (l : Lexer) (k : Nat) :
    (List.range k).countP (fun i => goesOn (l.reading i)) + (l.afterReadings k).rest.length ≤
      l.rest.length := by
  induction k with
  | zero => simp [afterReadings]
  | succ k ih =>
    obtain ⟨read, hread, hsome⟩ := (l.afterReadings k).next_advances
    rw [← afterReadings_succ] at hread
    have hlength := congrArg List.length hread.rest
    rw [List.length_append] at hlength
    rw [List.range_succ, List.countP_append, List.countP_singleton]
    by_cases hgoes : goesOn (l.reading k) = true
    · have hpos := List.length_pos_iff.mpr (hsome hgoes)
      rw [if_pos hgoes]
      omega
    · rw [if_neg hgoes]
      omega

/-- A run is the readings up to the first that ends it. -/
theorem readings_run (l : Lexer) :
    (List.range l.run.tokens.length).map l.reading = l.run.tokens.map .ok ∧
      l.reading l.run.tokens.length = l.run.ending ∧
      l.afterReadings (l.run.tokens.length + 1) = l.run.lexer := by
  fun_induction run l with
  | case1 l e after hnext => simp [reading, afterReadings, hnext]
  | case2 l token after hnext atEnd => simp [reading, afterReadings, hnext]
  | case3 l token after hnext inside scan ih =>
    obtain ⟨htokens, hending, hlexer⟩ := ih
    have hafter : l.next.2 = after := by rw [hnext]
    have hfirst : l.reading 0 = .ok token := by simp [reading, afterReadings, hnext]
    refine ⟨?_, ?_, ?_⟩
    · rw [List.length_cons, List.range_succ_eq_map, List.map_cons, List.map_map, hfirst,
        List.map_cons, ← htokens]
      congr 1
      apply List.map_congr_left
      intro i _
      rw [Function.comp_apply, Nat.succ_eq_add_one, reading_next, hafter]
    · rw [List.length_cons, reading_next, hafter]
      exact hending
    · rw [List.length_cons, afterReadings_next, hafter]
      exact hlexer

end Lexer

/-- **Reading goes on or comes to rest.**  However often a lexer is asked, each reading
    either takes at least one character or is repeated for ever by all that follow,
    with the same place and the same interpolations open; so at most as many
    readings go on as the text has characters.  Reading to the end takes the
    readings up to the first that is no token with text, which is at most one more;
    the end of the input is reported by no other, so once and last. -/
theorem readings_settle (source : Text) :
    let l := Lexer.new source
    (∀ k, goesOn (l.reading k) = true →
        ∃ read, read ≠ [] ∧ (l.afterReadings k).Advances read (l.afterReadings (k + 1))) ∧
      (∀ k, (List.range k).countP (fun i => goesOn (l.reading i)) ≤ source.length) ∧
      (∀ k, goesOn (l.reading k) = false → settles (l.reading k) = true) ∧
      (∀ k, settles (l.reading k) = true → ∀ j, k < j → l.reading j = l.reading k ∧
        (l.afterReadings j).nesting = (l.afterReadings k).nesting) ∧
      let scan := lexAll source
      (List.range scan.tokens.length).map l.reading = scan.tokens.map .ok ∧
        l.reading scan.tokens.length = scan.ending ∧
        scan.tokens.length + 1 ≤ source.length + 1 ∧
        (∀ token ∈ scan.tokens, token.kind ≠ .endOfInput) ∧
        ∀ eof, scan.ending = .ok eof → eof.kind = .endOfInput := by
  intro l
  refine ⟨?_, ?_, ?_, ?_, ?_⟩
  · intro k hgoes
    obtain ⟨read, hread, hsome⟩ := (l.afterReadings k).next_advances
    rw [← Lexer.afterReadings_succ] at hread
    exact ⟨read, hsome hgoes, hread⟩
  · intro k
    have hcount := l.countP_goesOn k
    have hsource : l.rest.length = source.length := rfl
    omega
  · intro k hstops
    exact (l.afterReadings k).settles_of_not_goesOn hstops
  · intro k hsettles j hlater
    obtain ⟨hlexer, hreading⟩ := Lexer.afterReadings_settled hsettles hlater
    refine ⟨hreading, ?_⟩
    rw [hlexer, Lexer.afterReadings_succ]
    exact (Lexer.next_settles _ hsettles).2
  · intro scan
    obtain ⟨htokens, hending, -⟩ := l.readings_run
    have hlaid := lexAll_laidOut source
    refine ⟨htokens, hending, Nat.succ_le_succ l.run_length_le, hlaid.inside, ?_⟩
    intro eof hsuccess
    exact (hlaid.finish hsuccess).1

/-- A string is given up at the end of its line, and the line below is read; behind
    the quote that is then left open only the end of the text is read. -/
example :
    let l := Lexer.new "'a\n'".toList
    (List.range 5).map (fun k => goesOn (l.reading k)) = [true, true, false, false, false] := by
  decide +kernel

end GroovyShell
