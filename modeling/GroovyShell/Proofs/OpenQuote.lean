/-
  GroovyShell/Proofs/OpenQuote.lean
  =================================
  **When the cursor is in a string.**

  That the cursor is in a string is concluded from signs: as many strings were
  left as were ended, the failure is on the last line, and a quote stands where it
  points.  Together they pick out one situation.  Outside every string the item
  that cannot be read begins with a quote exactly if it is a string without an end
  (`Lexer.FailsAt.quote_iff`), and in front of that quote the text is read to its end.
-/
import GroovyShell.Proofs.Nesting

namespace GroovyShell

/-! ### Why a reading fails -/

namespace Lexer

theorem next_fails {l after : Lexer} {before : Text} {e : LexError} (h : l.Stands before)
    (hnext : l.next = (.error e, after)) :
    ∃ gap rest, l.rest = gap ++ rest ∧ IsGap before.isEmpty rest gap ∧
      e.position = some (.behind (before ++ gap)) ∧ FailsAt l.nesting rest e.fault := by
  obtain ⟨gap, rest, hfails, he⟩ := fails_of_next hnext
  refine ⟨gap, rest, hfails.rest, h.opening ▸ hfails.isGap, ?_, hfails.failsAt⟩
  rw [he, LexError.at, h.position, Position.behind_append]

/-- Outside every string a reading fails at a quote exactly if it fails at a string
    without an end. -/
theorem FailsAt.quote_iff {rest : Text} {fault : LexFault} (h : FailsAt [] rest fault) :
    rest.head? = some '\'' ∨ rest.head? = some '"' ↔ fault = .unterminatedString := by
  constructor
  · intro hquote
    cases h with
    | comment hcomment =>
      obtain ⟨body, rfl, -⟩ := hcomment
      simp at hquote
    | string hitem => rfl
    | @char c hitem =>
      obtain ⟨tail, rfl⟩ := itemAt_unexpected hitem
      have hc : c = '\'' ∨ c = '"' := by simpa using hquote
      have hstring : itemAt [] (c :: tail) = quotedItem [] c tail := by
        rcases hc with rfl | rfl
        · rfl
        · rfl
      rw [hstring] at hitem
      exact absurd hitem stringItem_ne_unexpected
  · rintro rfl
    cases h with
    | string hitem =>
      obtain ⟨triple, resumed, hahead⟩ := itemAt_unterminated hitem
      cases hahead with
      | opened hquote =>
        rcases hquote with rfl | rfl
        · exact .inl rfl
        · exact .inr rfl
      | resumed hnone => simp at hnone

end Lexer

/-! ### What is concluded from a failure -/

theorem quoteColumn_eq_some {e : LexError} {current : Text} {prior column : Nat} :
    e.quoteColumn current prior = some column ↔
      e.position = some ⟨prior + 1, column + 1⟩ ∧
        (current[column]? = some '\'' ∨ current[column]? = some '"') := by
  unfold LexError.quoteColumn
  split
  · rename_i row col hposition
    rw [hposition]
    simp only [Option.ite_none_right_eq_some, Option.some.injEq, Position.mk.injEq]
    constructor
    · rintro ⟨⟨hquote, rfl⟩, rfl⟩
      exact ⟨⟨rfl, rfl⟩, hquote⟩
    · rintro ⟨⟨rfl, hcol⟩, hquote⟩
      obtain rfl : col = column := by omega
      exact ⟨⟨hquote, rfl⟩, rfl⟩
  · rename_i hposition
    simp only [reduceCtorEq, false_iff, not_and]
    intro hat
    exact absurd hat (hposition _ _)

theorem placeAtEnd_ne_inString (line : Nat) (seen : List Token) (column : Nat) :
    placeAtEnd line seen ≠ .inString column := by
  unfold placeAtEnd
  split
  · simp
  · split
    · simp
    · simp

theorem placeAtFailure_inString {e : LexError} {opened prior column : Nat} {line : Text} :
    placeAtFailure e opened line prior = .inString column ↔
      opened = 0 ∧ e.quoteColumn line prior = some column := by
  unfold placeAtFailure
  split
  · rename_i hopened
    have hsome : opened ≠ 0 := by omega
    simp [hsome]
  · rename_i hopened
    have hnone : opened = 0 := by omega
    cases hquote : e.quoteColumn line prior with
    | none => simp
    | some found => simp [hnone]

section LastLine

variable {prior : List Text} {line : Text} {column : Nat} {last : Lexer}

/-- The cursor is in a string where reading fails outside every string, at a quote
    in the last line. -/
theorem cursorPlace_inString_iff
    (hlast : (Lexer.new (Text.below prior line)).Emits (lexAll (Text.below prior line)).tokens last) :
    cursorPlace prior line = .inString column ↔
      last.nesting = [] ∧ ∃ e, (lexAll (Text.below prior line)).ending = .error e ∧
        e.quoteColumn line prior.length = some column := by
  have hplace := hlast.place line prior.length [] [(lexAll (Text.below prior line)).ending]
  have hcursor : cursorPlace prior line =
      placeFrom line prior.length last.nesting.length
        ((lexAll (Text.below prior line)).tokens.reverse ++ [])
        [(lexAll (Text.below prior line)).ending] := hplace
  have hlaid := Lexer.run_laidOut (Lexer.stands_new (Text.below prior line))
  rw [hcursor]
  cases hending : (lexAll (Text.below prior line)).ending with
  | ok eof =>
    rw [placeFrom, if_pos (hlaid.finish hending).1]
    simp [placeAtEnd_ne_inString]
  | error e =>
    rw [placeFrom, placeAtFailure_inString]
    simp

/-- Where a failure in the last line is told from its place, the line goes on from
    there with what cannot be read, and before it stands a gap. -/
theorem failure_in_line {tokens : List Token} {after : Lexer} {e : LexError}
    (hprior : ∀ p ∈ prior, '\n' ∉ p) (hline : '\n' ∉ line)
    (hlast : (Lexer.new (Text.below prior line)).Emits tokens last)
    (hnext : last.next = (.error e, after))
    (hrow : e.position = some ⟨prior.length + 1, column + 1⟩) :
    ∃ front gap, Text.below prior line = front ++ (gap ++ line.drop column) ∧
      last.rest = gap ++ line.drop column ∧ IsGap (last.offset == 0) (line.drop column) gap ∧
      Text.below prior (line.take column) = front ++ gap ∧
      Lexer.FailsAt last.nesting (line.drop column) e.fault := by
  obtain ⟨front, hfront, hstands⟩ := hlast.stands (Lexer.stands_new _)
  rw [List.nil_append] at hstands
  obtain ⟨gap, rest, hrest, hgap, hposition, hfails⟩ := Lexer.next_fails hstands hnext
  rw [hposition, Option.some.injEq] at hrow
  have hsource : Text.below prior line = front ++ gap ++ rest := by
    rw [List.append_assoc, ← hrest]
    exact hfront
  obtain ⟨left, hleft, hcut, hplace⟩ := Text.cut_below hprior hline hsource (by rw [hrow])
  rw [hplace, Position.mk.injEq] at hrow
  obtain rfl : left.length = column := by omega
  have hdrop : line.drop left.length = rest := by rw [hleft, List.drop_left]
  have htake : line.take left.length = left := by rw [hleft, List.take_left]
  rw [hdrop, htake]
  refine ⟨front, gap, ?_, hrest, ?_, hcut.symm, hfails⟩
  · rw [hsource, List.append_assoc]
  · rw [hstands.opening]
    exact hgap

theorem quoteColumn_iff {tokens : List Token} {after : Lexer} {e : LexError}
    (hprior : ∀ p ∈ prior, '\n' ∉ p) (hline : '\n' ∉ line)
    (hlast : (Lexer.new (Text.below prior line)).Emits tokens last)
    (hnext : last.next = (.error e, after)) (hnone : last.nesting = []) :
    e.quoteColumn line prior.length = some column ↔
      e = .at .unterminatedString ⟨prior.length + 1, column + 1⟩ := by
  rw [quoteColumn_eq_some, ← List.head?_drop]
  constructor
  · rintro ⟨hrow, hquote⟩
    obtain ⟨front, gap, -, -, -, -, hfails⟩ := failure_in_line hprior hline hlast hnext hrow
    rw [hnone] at hfails
    obtain ⟨fault, position⟩ := e
    rw [LexError.at, LexError.mk.injEq]
    exact ⟨hfails.quote_iff.mp hquote, hrow⟩
  · rintro rfl
    obtain ⟨front, gap, -, -, -, -, hfails⟩ := failure_in_line hprior hline hlast hnext rfl
    rw [hnone] at hfails
    exact ⟨rfl, hfails.quote_iff.mpr rfl⟩

/-- Nothing is open behind the last token exactly if as many strings were ended as
    were left. -/
theorem nesting_eq_nil_iff {l : Lexer} {tokens : List Token} (h : l.Emits tokens last)
    (hl : l.nesting = []) :
    last.nesting = [] ↔ countKind .stringEnd tokens = countKind .stringStart tokens := by
  have hbalance := h.balance
  rw [hl, List.length_nil] at hbalance
  rw [← List.length_eq_zero_iff]
  constructor
  · intro hzero
    omega
  · intro hsame
    omega

/-- The text in front of the quote is read to its end, and all that is told from it
    is told from there. -/
theorem inString_cut (hprior : ∀ p ∈ prior, '\n' ∉ p) (hline : '\n' ∉ line)
    (h : cursorPlace prior line = .inString column) :
    (∃ n after, itemAt [] (line.drop column) = .unterminated n after) ∧
      let cut := lexAll (Text.below prior (line.take column))
      cut.tokens = (lexAll (Text.below prior line)).tokens ∧ (∃ eof, cut.ending = .ok eof) ∧
        cut.lexer.nesting = [] := by
  obtain ⟨last, hlast, hnext⟩ := Lexer.emits_run (.new (Text.below prior line))
  obtain ⟨hnone, e, hending, hquote⟩ := (cursorPlace_inString_iff hlast).mp h
  rw [show (Lexer.new (Text.below prior line)).run.ending = .error e from hending] at hnext
  obtain rfl := (quoteColumn_iff hprior hline hlast hnext hnone).mp hquote
  obtain ⟨front, gap, hsource, hrest, hgap, hcut, hfails⟩ :=
    failure_in_line hprior hline hlast hnext rfl
  rw [hnone] at hfails
  constructor
  · cases hfails with
    | string hitem => exact ⟨_, _, hitem⟩
  · rw [hsource] at hlast
    have hrun := hlast.run_cut hrest hgap
    rw [hnone, ← hcut, ← hsource] at hrun
    exact hrun

/-- **When the cursor is in a string.**  It is where every string that was left has
    been ended and reading fails at a string in the last line.  The quote stands at
    the column reported, and the text before it is read to its end with the same
    tokens and nothing open.  No other failure is taken for it: not one at a comment
    or a character, nor on an earlier line, nor behind an interpolation that was
    open, be it closed by the brace that resumes the string. -/
theorem cursor_in_string (hprior : ∀ p ∈ prior, '\n' ∉ p) (hline : '\n' ∉ line) (column : Nat) :
    let scan := lexAll (Text.below prior line)
    (cursorPlace prior line = .inString column ↔
        countKind .stringEnd scan.tokens = countKind .stringStart scan.tokens ∧
          scan.ending = .error (.at .unterminatedString ⟨prior.length + 1, column + 1⟩)) ∧
      (cursorPlace prior line = .inString column →
        column < line.length ∧
          ((line.drop column).head? = some '\'' ∨ (line.drop column).head? = some '"') ∧
          (∃ n after, itemAt [] (line.drop column) = .unterminated n after) ∧
          let cut := lexAll (Text.below prior (line.take column))
          cut.tokens = scan.tokens ∧ (∃ eof, cut.ending = .ok eof) ∧ cut.lexer.nesting = []) ∧
      ∀ last e after, (Lexer.new (Text.below prior line)).Emits scan.tokens last →
        last.next = (.error e, after) →
          e.fault = .unterminatedComment ∨ (∃ c, e.fault = .unexpectedChar c) ∨
              (∀ p ∈ e.position, p.line ≤ prior.length) ∨ last.nesting ≠ [] →
            cursorPlace prior line ≠ .inString column := by
  intro scan
  refine ⟨?_, ?_, ?_⟩
  · obtain ⟨last, hlast, hnext⟩ := Lexer.emits_run (.new (Text.below prior line))
    change last.next = (scan.ending, scan.lexer) at hnext
    rw [cursorPlace_inString_iff hlast, nesting_eq_nil_iff hlast rfl]
    apply and_congr_right
    intro hsame
    have hnone := (nesting_eq_nil_iff hlast rfl).mpr hsame
    constructor
    · rintro ⟨e, hending, hquote⟩
      rw [show scan.ending = .error e from hending] at hnext
      rw [show scan.ending = .error e from hending,
        (quoteColumn_iff hprior hline hlast hnext hnone).mp hquote]
    · intro hending
      rw [hending] at hnext
      exact ⟨_, hending, (quoteColumn_iff hprior hline hlast hnext hnone).mpr rfl⟩
  · intro hstring
    obtain ⟨last, hlast, -⟩ := Lexer.emits_run (.new (Text.below prior line))
    obtain ⟨-, e, -, hquote⟩ := (cursorPlace_inString_iff hlast).mp hstring
    have hat := (quoteColumn_eq_some.mp hquote).2
    have hinside : column < line.length := by
      rcases hat with hat | hat
      · exact (List.getElem?_eq_some_iff.mp hat).1
      · exact (List.getElem?_eq_some_iff.mp hat).1
    rw [← List.head?_drop] at hat
    exact ⟨hinside, hat, inString_cut hprior hline hstring⟩
  · intro last e after hlast hnext hcases hstring
    obtain ⟨hnone, other, hother, hquote⟩ := (cursorPlace_inString_iff hlast).mp hstring
    have hending : scan.ending = .error e := by
      rw [show scan = (Lexer.new (Text.below prior line)).run from rfl, hlast.run_eq,
        Lexer.run_error hnext]
    obtain rfl : e = other := Except.error.inj (hending.symm.trans hother)
    obtain rfl := (quoteColumn_iff hprior hline hlast hnext hnone).mp hquote
    rcases hcases with hcomment | ⟨c, hchar⟩ | hearlier | hopen
    · simp [LexError.at] at hcomment
    · simp [LexError.at] at hchar
    · exact absurd (hearlier _ rfl) (Nat.not_succ_le_self _)
    · exact hopen hnone

end LastLine

/-- A quote behind a closed string and a comment, below a line that ends a statement. -/
theorem cursor_in_string_second :
    let prior : List Text := ["x = \"\"\"$\x7by\x7d\"\"\" // it's".toList]
    let line : Text := "f('a', /* b */ \"c".toList
    (∀ p ∈ prior, '\n' ∉ p) ∧ '\n' ∉ line ∧ cursorPlace prior line = .inString 15 ∧
      (lexAll (Text.below prior line)).ending = .error (.at .unterminatedString ⟨2, 16⟩) ∧
      (lexAll (Text.below prior (line.take 15))).tokens = (lexAll (Text.below prior line)).tokens := by
  intro prior line
  have hprior : ∀ p ∈ prior, '\n' ∉ p := by decide +kernel
  have hline : '\n' ∉ line := by decide +kernel
  have hplace : cursorPlace prior line = .inString 15 := by decide +kernel
  obtain ⟨hiff, hcut, -⟩ := cursor_in_string hprior hline 15
  exact ⟨hprior, hline, hplace, (hiff.mp hplace).2, (hcut hplace).2.2.2.1⟩

end GroovyShell
