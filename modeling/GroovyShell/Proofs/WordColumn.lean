/-
  GroovyShell/Proofs/WordColumn.lean
  ==================================
  **The column from which a completion goes in.**

  The lexer counts columns in all the lines typed so far, and a completion goes
  into the last of them.  That these columns are columns of that line rests on
  one comparison, made at the end of the text: the last token is not on an earlier
  line.  From there on the offset that the engine reports is found in the line,
  never behind the cursor: where the word begins, or just behind the dot.
-/
import GroovyShell.Proofs.Nesting
import GroovyShell.Proofs.Replacement

namespace GroovyShell

/-! ### How a dot is written -/

/-- The ways to write a member access. -/
def dotTexts : List Text := [['.'], ['?', '.'], ['*', '.']]

theorem dotItem_text {t : Text} {kind : TokenKind} {n : Nat} (h : dotItem t = some (kind, n)) :
    t.take n ∈ dotTexts := by
  unfold dotItem at h
  split at h <;> simp at h <;> simp [← h.2, dotTexts]

theorem markItem_isDot {t : Text} {kind : TokenKind} {n : Nat} (h : markItem t = some (kind, n)) :
    kind.isDot = false := by
  unfold markItem at h
  split at h <;> simp at h <;> simp [← h.1, TokenKind.isDot]

theorem wordKind_isDot (word : Text) : (wordKind word).isDot = false := by
  unfold wordKind
  split
  · rfl
  · rfl

theorem plainItem_dot {t : Text} {kind : TokenKind} {n : Nat} (h : plainItem t = some (kind, n))
    (hdot : kind.isDot = true) : t.take n ∈ dotTexts := by
  unfold plainItem at h
  simp only [Option.orElse_eq_orElse, Option.orElse_eq_or, Option.or_eq_some_iff] at h
  rcases h with h | ⟨_, h | ⟨_, h | ⟨_, h | ⟨_, h⟩⟩⟩⟩
  · exact dotItem_text h
  · simp [markItem_isDot h] at hdot
  · unfold numberItem at h
    split at h
    · split at h <;> simp at h
      simp [← h.1, TokenKind.isDot] at hdot
    · simp at h
  · unfold wordItem at h
    split at h
    · split at h <;> simp at h
      rw [← h.1, wordKind_isDot] at hdot
      simp at hdot
    · simp at h
  · obtain ⟨op, _, he⟩ := Option.map_eq_some_iff.mp h
    simp only [Prod.mk.injEq] at he
    simp [← he.1, TokenKind.isDot] at hdot

theorem itemAt_dotText {nesting after : List Interpolation} {t : Text} {kind : TokenKind} {n : Nat}
    (h : itemAt nesting t = .token kind n after) (hdot : kind.isDot = true) :
    t.take n ∈ dotTexts := by
  cases t with
  | nil =>
    simp only [itemAt, Item.token.injEq] at h
    simp [← h.1, TokenKind.isDot] at hdot
  | cons c t =>
    cases itemAt_head h with
    | brace hitem hkind _ =>
      simp only [Item.token.injEq] at hitem
      obtain ⟨rfl, -, -⟩ := hitem
      rcases hkind with rfl | rfl
      · simp [TokenKind.isDot] at hdot
      · simp [TokenKind.isDot] at hdot
    | resumed hitem _ _ =>
      rcases stringItem_token hitem.symm with ⟨rfl, -⟩ | ⟨rfl, -⟩
      · simp [TokenKind.isDot] at hdot
      · simp [TokenKind.isDot] at hdot
    | quoted hitem _ =>
      rcases stringItem_token hitem.symm with ⟨rfl, -⟩ | ⟨rfl, -⟩
      · simp [TokenKind.isDot] at hdot
      · simp [TokenKind.isDot] at hdot
    | plain hitem hplain =>
      simp only [Item.token.injEq] at hitem
      obtain ⟨rfl, rfl, -⟩ := hitem
      exact plainItem_dot hplain hdot
    | unexpected hitem => simp at hitem

namespace Lexer

/-- Every token of a run is the item at the head of what was still to be read. -/
theorem run_item (l : Lexer) :
    ∀ token ∈ l.run.tokens, ∃ nesting rest after,
      itemAt nesting (token.text ++ rest) = .token token.kind token.text.length after := by
  fun_induction run l with
  | case1 l e after hnext => simp
  | case2 l token after hnext atEnd => simp
  | case3 l token after hnext inside scan ih =>
    intro other hother
    rcases List.mem_cons.mp hother with rfl | hother
    · obtain ⟨gap, hreads⟩ := reads_of_next hnext
      exact ⟨_, _, _, hreads.item⟩
    · exact ih other hother

end Lexer

theorem dot_text {source : Text} {token : Token} (h : token ∈ (lexAll source).tokens)
    (hdot : token.kind.isDot = true) : token.text ∈ dotTexts := by
  obtain ⟨nesting, rest, after, hitem⟩ := Lexer.run_item _ token h
  have htext := itemAt_dotText hitem hdot
  rwa [List.take_left] at htext

/-! ### Where the engine puts a completion -/

theorem CompletionCase.ofWord_ne_afterDot (previous : Option Token) (before : Nat) :
    CompletionCase.ofWord previous before ≠ .afterDot := by
  unfold CompletionCase.ofWord
  split
  · simp
  · split
    · split <;> simp
    · split <;> simp
    · simp
    · simp

theorem TokenStream.dot_of_case {stream : TokenStream} (h : stream.case = .afterDot) :
    stream.last.kind.isDot = true := by
  unfold TokenStream.case at h
  split at h
  · exact absurd h (CompletionCase.ofWord_ne_afterDot _ _)
  · rename_i hdot
    rw [hdot]
    rfl
  · simp at h

theorem completeMembers_place {s : Session} {stream : TokenStream} {present offset : Nat}
    (h : (completeMembers s stream present).place = some offset) : offset = stream.memberColumn := by
  unfold completeMembers at h
  split at h
  · simp [PlacedOffer.none] at h
  · dsimp only at h
    split at h
    · simp [PlacedOffer.none] at h
    · exact (Option.some.inj h).symm

/-- Whatever completes names, and with the members the session knows, a completion
    goes in where the word begins, or just behind the dot. -/
theorem complete_place {e : Engine} {prior : List Text} {line : Text}
    {cursor present offset : Nat} {stream : TokenStream}
    (hmembers : ∀ members ∈ e.members, ∃ s, members = completeMembers s)
    (hplace : cursorPlace prior (line.take cursor) = .after stream)
    (h : (e.complete prior line cursor present).place = some offset) :
    (stream.case = .word ∨ stream.case = .memberWord) ∧ offset = stream.last.start ∨
      stream.case = .afterDot ∧ offset = stream.last.start + stream.last.text.length := by
  unfold Engine.complete at h
  split at h
  · simp [PlacedOffer.none] at h
  rw [hplace] at h
  dsimp only at h
  unfold Engine.completeAfter at h
  cases hcase : stream.case with
  | nothing => simp [hcase, PlacedOffer.none] at h
  | word =>
    rw [hcase] at h
    simp only [Engine.completeWord, Option.ite_none_right_eq_some, Option.some.injEq] at h
    exact .inl ⟨.inl rfl, h.2.symm⟩
  | afterDot =>
    rw [hcase] at h
    cases hsome : e.members with
    | none => simp [hsome, PlacedOffer.none] at h
    | some members =>
      obtain ⟨s, rfl⟩ := hmembers members hsome
      rw [hsome] at h
      rw [completeMembers_place h, TokenStream.memberColumn, if_pos (TokenStream.dot_of_case hcase)]
      exact .inr ⟨rfl, rfl⟩
  | memberWord =>
    rw [hcase] at h
    cases hsome : e.members with
    | none => simp [hsome, PlacedOffer.none] at h
    | some members =>
      obtain ⟨s, rfl⟩ := hmembers members hsome
      have hname : stream.last.kind.isDot = false := by
        rw [TokenStream.name_of_case (.inr hcase)]
        rfl
      rw [hsome] at h
      rw [completeMembers_place h, TokenStream.memberColumn, if_neg (by simp [hname])]
      exact .inl ⟨.inr rfl, rfl⟩

/-- **A completion goes in at a column of the line that is typed.**  The last token
    before the cursor begins on that line, at its column; between it and the cursor
    there are white space and comments.  The offset the engine reports is the column
    where the word begins, or the one behind the dot, of one character or two, and
    never lies behind the cursor. -/
theorem word_in_line {prior : List Text} {line : Text} {cursor : Nat} {stream : TokenStream}
    (hprior : ∀ p ∈ prior, '\n' ∉ p) (hline : '\n' ∉ line)
    (hplace : cursorPlace prior (line.take cursor) = .after stream) :
    let start := stream.last.position.column - 1
    let stop := start + stream.last.text.length
    stream.last.position.line = prior.length + 1 ∧ 1 ≤ stream.last.position.column ∧
      (line.drop start).take stream.last.text.length = stream.last.text ∧
      stop ≤ min cursor line.length ∧ GapText [] ((line.take cursor).drop stop) ∧
      ∀ (e : Engine) (present offset : Nat),
        (∀ members ∈ e.members, ∃ s, members = completeMembers s) →
          (e.complete prior line cursor present).place = some offset →
            offset ≤ cursor ∧
              ((stream.case = .word ∨ stream.case = .memberWord) ∧ stream.last.kind = .name ∧
                  offset = start ∨
                stream.case = .afterDot ∧ stream.last.text ∈ dotTexts ∧ offset = stop) := by
  intro start stop
  have htake : '\n' ∉ line.take cursor := fun h => hline (List.mem_of_mem_take h)
  obtain ⟨front, gap, hsource, hposition, hgap, hrow, hmem⟩ := cursorPlace_last hplace
  have hlast : prior.length + 1 ≤ (Position.behind front).line := by
    rw [Position.behind, Text.count_below hprior htake] at hrow
    simp only at hrow
    omega
  obtain ⟨left, htyped, -, hbehind⟩ := Text.cut_below hprior htake hsource hlast
  rw [hbehind] at hposition
  have hstart : start = left.length := by
    simp [start, hposition]
  have hstop : stop = (left ++ stream.last.text).length := by
    simp [stop, hstart]
  have hwhole : line = left ++ (stream.last.text ++ (gap ++ line.drop cursor)) := by
    rw [← List.append_assoc _ gap, ← List.append_assoc left, ← htyped, List.take_append_drop]
  have hcursor : stop ≤ min cursor line.length := by
    have hlength := congrArg List.length htyped
    simp only [List.length_take, List.length_append] at hlength
    rw [hstop, List.length_append]
    omega
  refine ⟨by rw [hposition], by simp [hposition], ?_, hcursor, ?_, ?_⟩
  · rw [hstart, hwhole, List.drop_left, List.take_left]
  · rw [hstop, htyped, ← List.append_assoc, List.drop_left]
    exact hgap
  · intro e present offset hmembers hoffset
    rcases complete_place hmembers hplace hoffset with ⟨hcase, hat⟩ | ⟨hcase, hat⟩
    · change offset = start at hat
      exact ⟨by omega, .inl ⟨hcase, TokenStream.name_of_case hcase, hat⟩⟩
    · change offset = stop at hat
      exact ⟨by omega, .inr ⟨hcase, dot_text hmem (TokenStream.dot_of_case hcase), hat⟩⟩

/-- Behind a dot of two characters and a comment, on the second line. -/
theorem word_in_line_safe_dot :
    let prior : List Text := ["s = 'b'".toList]
    let line : Text := "1; s?. /* c */".toList
    let s : Session := Session.new.record "s = 'b'".toList
    let e : Engine := engineFor ⟨true, true, true, true, true, true, false⟩ s ⟨.dir [], [], none⟩
    let stream : TokenStream :=
      ⟨⟨.dot .safe, "?.".toList, ⟨2, 5⟩⟩,
        [ ⟨.name, "s".toList, ⟨2, 4⟩⟩, ⟨.semicolon, ";".toList, ⟨2, 2⟩⟩,
          ⟨.number, "1".toList, ⟨2, 1⟩⟩, ⟨.string, "'b'".toList, ⟨1, 5⟩⟩,
          ⟨.operator, "=".toList, ⟨1, 3⟩⟩, ⟨.name, "s".toList, ⟨1, 1⟩⟩ ]⟩
    (∀ p ∈ prior, '\n' ∉ p) ∧ '\n' ∉ line ∧ cursorPlace prior (line.take 14) = .after stream ∧
      (∀ members ∈ e.members, ∃ s, members = completeMembers s) ∧
      (e.complete prior line 14 0).place = some 6 ∧
      (line.drop 4).take 2 = stream.last.text ∧ GapText [] ((line.take 14).drop 6) ∧
      stream.case = .afterDot ∧ stream.last.text ∈ dotTexts := by
  intro prior line s e stream
  have hprior : ∀ p ∈ prior, '\n' ∉ p := by decide +kernel
  have hline : '\n' ∉ line := by decide +kernel
  have hplace : cursorPlace prior (line.take 14) = .after stream := by decide +kernel
  have hoffset : (e.complete prior line 14 0).place = some 6 := by decide +kernel
  have hcase : stream.case = .afterDot := by decide +kernel
  have hmembers : ∀ members ∈ e.members, ∃ s, members = completeMembers s := by
    intro members hmem
    exact ⟨s, (Option.some.inj hmem).symm⟩
  obtain ⟨-, -, htext, -, hgap, hengine⟩ := word_in_line hprior hline hplace
  refine ⟨hprior, hline, hplace, hmembers, hoffset, htext, hgap, hcase, ?_⟩
  rcases (hengine e 0 6 hmembers hoffset).2 with ⟨hword, -, -⟩ | ⟨-, hdot, -⟩
  · simp [hcase] at hword
  · exact hdot

end GroovyShell
