/-
  GroovyShell/Proofs/Nesting.lean
  ===============================
  **Strings and braces nest, and everyone counts the same open strings.**

  The lexer remembers of each open interpolation how many braces are open in its
  code, and of braces outside nothing.  Here all that is open is told from the
  tokens alone, by a stack of marks on which each token must find what it closes
  (`TokenKind.marksAfter`).  The stack is at every point the one that the lexer's
  memory stands for (`openMarks`), up to braces outside every string, so no token
  ever finds the wrong mark.
-/
import GroovyShell.Completion.Cursor
import GroovyShell.Proofs.Emission

namespace GroovyShell

/-! ### What tokens open and close -/

/-- What can be open at a place of a program: a string that was left at `${`, or
    a brace. -/
inductive Mark where
  | string
  | brace
deriving DecidableEq, Repr

/-- What is open behind a token, innermost first.  There is no answer where a part
    of a string does not find its string innermost, or a brace would close one. -/
def TokenKind.marksAfter (kind : TokenKind) (marks : List Mark) : Option (List Mark) :=
  match kind, marks with
  | .stringStart, marks => some (.string :: marks)
  | .stringMiddle, .string :: outer => some (.string :: outer)
  | .stringMiddle, _ => none
  | .stringEnd, .string :: outer => some outer
  | .stringEnd, _ => none
  | .opening .brace, marks => some (.brace :: marks)
  | .closing .brace, [] => some []
  | .closing .brace, .brace :: outer => some outer
  | .closing .brace, .string :: _ => none
  | _, marks => some marks

/-- What is open behind some tokens at the beginning of a text. -/
def marksAfter (tokens : List Token) : Option (List Mark) :=
  tokens.foldlM (fun marks token => token.kind.marksAfter marks) []

/-- Number of tokens of one kind. -/
def countKind (kind : TokenKind) (tokens : List Token) : Nat :=
  tokens.countP fun token => token.kind = kind

/-! ### What a reading does to the open interpolations -/

/-- `Nests nesting kind after`: all that a token of this kind can do to the open
    interpolations. -/
inductive Nests : List Interpolation → TokenKind → List Interpolation → Prop
  | kept {nesting : List Interpolation} {kind : TokenKind} :
      kind.isPlain = true ∨ kind = .string ∨ kind = .endOfInput → Nests nesting kind nesting
  | left {nesting : List Interpolation} {triple : Bool} :
      Nests nesting .stringStart (⟨triple, 0⟩ :: nesting)
  | resumed {outer : List Interpolation} {triple : Bool} :
      Nests (⟨triple, 0⟩ :: outer) .stringMiddle (⟨triple, 0⟩ :: outer)
  | ended {outer : List Interpolation} {triple : Bool} :
      Nests (⟨triple, 0⟩ :: outer) .stringEnd outer
  | looseOpen : Nests [] (.opening .brace) []
  | looseClose : Nests [] (.closing .brace) []
  | deeper {outer : List Interpolation} {triple : Bool} {depth : Nat} :
      Nests (⟨triple, depth⟩ :: outer) (.opening .brace) (⟨triple, depth + 1⟩ :: outer)
  | shallower {outer : List Interpolation} {triple : Bool} {depth : Nat} :
      Nests (⟨triple, depth + 1⟩ :: outer) (.closing .brace) (⟨triple, depth⟩ :: outer)

theorem openBraceItem_nests {nesting after : List Interpolation} {kind : TokenKind} {n : Nat}
    (h : openBraceItem nesting = .token kind n after) : Nests nesting kind after := by
  cases nesting with
  | nil =>
    simp only [openBraceItem, Item.token.injEq] at h
    obtain ⟨rfl, -, rfl⟩ := h
    exact .looseOpen
  | cons innermost outer =>
    simp only [openBraceItem, Item.token.injEq] at h
    obtain ⟨rfl, -, rfl⟩ := h
    exact .deeper

theorem closeBraceItem_nests {nesting after : List Interpolation} {t : Text} {kind : TokenKind}
    {n : Nat} (h : closeBraceItem t nesting = .token kind n after) : Nests nesting kind after := by
  rcases nesting with _ | ⟨⟨triple, _ | depth⟩, outer⟩
  · simp only [closeBraceItem, Item.token.injEq] at h
    obtain ⟨rfl, -, rfl⟩ := h
    exact .looseClose
  · rcases stringItem_token h with ⟨rfl, rfl⟩ | ⟨rfl, rfl, -⟩
    · exact .ended
    · exact .resumed
  · simp only [closeBraceItem, Item.token.injEq] at h
    obtain ⟨rfl, -, rfl⟩ := h
    exact .shallower

theorem itemAt_nests {nesting after : List Interpolation} {t : Text} {kind : TokenKind} {n : Nat}
    (h : itemAt nesting t = .token kind n after) : Nests nesting kind after := by
  cases t with
  | nil =>
    simp only [itemAt, Item.token.injEq] at h
    obtain ⟨rfl, -, rfl⟩ := h
    exact .kept (.inr (.inr rfl))
  | cons c t =>
    rw [itemAt] at h
    split at h
    · exact openBraceItem_nests h
    · split at h
      · exact closeBraceItem_nests h
      · split at h
        · rcases stringItem_token h with ⟨rfl, rfl⟩ | ⟨rfl, rfl, -⟩
          · exact .kept (.inr (.inl rfl))
          · exact .left
        · split at h
          · rename_i hplain
            simp only [Item.token.injEq] at h
            obtain ⟨rfl, -, rfl⟩ := h
            exact .kept (.inl (plainItem_isPlain hplain))
          · simp at h

/-! ### The two stacks -/

/-- The marks that the lexer's memory stands for, above so many braces outside
    every string, of which it remembers nothing. -/
def openMarks (loose : Nat) : List Interpolation → List Mark
  | [] => List.replicate loose .brace
  | innermost :: outer =>
    List.replicate innermost.depth .brace ++ .string :: openMarks loose outer

theorem count_openMarks (loose : Nat) (nesting : List Interpolation) :
    (openMarks loose nesting).count .string = nesting.length := by
  induction nesting with
  | nil => simp [openMarks, List.count_replicate]
  | cons innermost outer ih => simp [openMarks, List.count_replicate, ih]

theorem marksAfter_kept {kind : TokenKind}
    (h : kind.isPlain = true ∨ kind = .string ∨ kind = .endOfInput) (marks : List Mark) :
    kind.marksAfter marks = some marks := by
  unfold TokenKind.marksAfter
  split <;> simp_all [TokenKind.isPlain]

/-- A token finds what it closes, and both stacks change alike. -/
theorem Nests.marks {nesting after : List Interpolation} {kind : TokenKind}
    (h : Nests nesting kind after) (loose : Nat) :
    ∃ left, kind.marksAfter (openMarks loose nesting) = some (openMarks left after) := by
  cases h with
  | kept hkind => exact ⟨loose, marksAfter_kept hkind _⟩
  | left => exact ⟨loose, rfl⟩
  | resumed => exact ⟨loose, rfl⟩
  | ended => exact ⟨loose, rfl⟩
  | looseOpen => exact ⟨loose + 1, rfl⟩
  | looseClose =>
    cases loose with
    | zero => exact ⟨0, rfl⟩
    | succ loose => exact ⟨loose, rfl⟩
  | deeper => exact ⟨loose, rfl⟩
  | shallower => exact ⟨loose, rfl⟩

/-- The counter of open strings follows the lexer's memory. -/
theorem Nests.length {nesting after : List Interpolation} {token : Token}
    (h : Nests nesting token.kind after) :
    (after.length : Int) = nesting.length + token.stringChange := by
  unfold Token.stringChange
  generalize token.kind = kind at h
  cases h with
  | kept hkind =>
    split
    · simp [TokenKind.isPlain] at hkind
    · simp [TokenKind.isPlain] at hkind
    · simp
  | left => simp
  | resumed => simp
  | ended =>
    simp only [List.length_cons]
    omega
  | looseOpen => simp
  | looseClose => simp
  | deeper => simp
  | shallower => simp

namespace Lexer.Emits

variable {l after : Lexer} {tokens : List Token}

theorem marks (h : l.Emits tokens after) (loose : Nat) :
    ∃ left, tokens.foldlM (fun marks token => token.kind.marksAfter marks)
      (openMarks loose l.nesting) = some (openMarks left after.nesting) := by
  induction h generalizing loose with
  | nothing l => exact ⟨loose, rfl⟩
  | token hnext _ _ ih =>
    obtain ⟨gap, hreads⟩ := reads_of_next hnext
    obtain ⟨middle, hmiddle⟩ := (itemAt_nests hreads.item).marks loose
    obtain ⟨left, hleft⟩ := ih middle
    refine ⟨left, ?_⟩
    rw [List.foldlM_cons, hmiddle]
    exact hleft

theorem balance (h : l.Emits tokens after) :
    (after.nesting.length : Int) =
      l.nesting.length + countKind .stringStart tokens - countKind .stringEnd tokens := by
  induction h with
  | nothing l => simp [countKind]
  | @token l middle after token tokens hnext _ _ ih =>
    obtain ⟨gap, hreads⟩ := reads_of_next hnext
    have hlength := (itemAt_nests hreads.item).length
    rw [ih, hlength]
    unfold Token.stringChange countKind
    split
    · rename_i hkind
      simp only [List.countP_cons, hkind]
      simp
      omega
    · rename_i hkind
      simp only [List.countP_cons, hkind]
      simp
      omega
    · rename_i hstart hend
      rw [List.countP_cons_of_neg (by simpa using hstart),
        List.countP_cons_of_neg (by simpa using hend), Int.add_zero]

/-- Whoever follows the tokens up to here has counted the open interpolations. -/
theorem place (h : l.Emits tokens after) (line : Text) (prior : Nat) (seen : List Token)
    (more : List (Except LexError Token)) :
    placeFrom line prior l.nesting.length seen (tokens.map .ok ++ more) =
      placeFrom line prior after.nesting.length (tokens.reverse ++ seen) more := by
  induction h generalizing seen with
  | nothing l => rfl
  | @token l middle after token tokens hnext hkind _ ih =>
    obtain ⟨gap, hreads⟩ := reads_of_next hnext
    have hlength := (itemAt_nests hreads.item).length
    simp only [List.map_cons, List.cons_append, placeFrom, if_neg hkind, ← hlength]
    rw [ih, List.reverse_cons, List.append_assoc]
    rfl

end Lexer.Emits

/-- **Strings and braces nest, and all counters agree.**  Behind any number of
    tokens every token has found the mark it closes, and the strings that are open
    are as many as the lexer remembers, as tokens have opened and not closed, and
    as the search for the cursor has counted there.  The end of the input leaves
    them as they are. -/
theorem marks_agree (source : Text) (n : Nat) :
    let tokens := (lexAll source).tokens.take n
    ∃ after marks, (Lexer.new source).Emits tokens after ∧ marksAfter tokens = some marks ∧
      marks.count .string = after.nesting.length ∧
      (marks.count .string : Int) = countKind .stringStart tokens - countKind .stringEnd tokens ∧
      (∀ line prior more,
        placeOfReadings (tokens.map .ok ++ more) line prior =
          placeFrom line prior (marks.count .string) tokens.reverse more) ∧
      ∀ eof last, after.next = (.ok eof, last) → eof.kind = .endOfInput →
        last.nesting = after.nesting := by
  intro tokens
  obtain ⟨after, hemits⟩ := Lexer.emits_take (.new source) n
  obtain ⟨left, hmarks⟩ := hemits.marks 0
  have hcount := count_openMarks left after.nesting
  refine ⟨after, openMarks left after.nesting, hemits, hmarks, hcount, ?_, ?_, ?_⟩
  · rw [hcount, hemits.balance]
    simp [Lexer.new, tokens, lexAll]
  · intro line prior more
    rw [hcount]
    have hplace := hemits.place line prior [] more
    rw [List.append_nil] at hplace
    exact hplace
  · intro eof last hnext hkind
    obtain ⟨gap, hreads⟩ := Lexer.reads_of_next hnext
    exact (hreads.atEnd hkind).2.2

/-- A closure inside an interpolation, cut behind its closing brace. -/
example :
    let source : Text := "\x7d\x7b \"a $\x7b\x7b b -> \"$\x7bb\x7d\" \x7d\x7d c\"".toList
    marksAfter ((lexAll source).tokens.take 10) = some [.string, .brace] := by
  decide +kernel

end GroovyShell
