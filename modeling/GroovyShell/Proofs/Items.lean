/-
  GroovyShell/Proofs/Items.lean
  =============================
  **What the head of a text can be.**

  `itemAt` is told which interpolations are open and says which are open behind
  the token it finds.  Here that stack is read off the tokens alone
  (`itemAt_nesting`), so that it can be spoken of without the lexer.  The other
  two outcomes are inverted too: a string without an end begins with its quote or
  is resumed by a brace, and an unexpected character is the one at the head.
-/
import GroovyShell.Lexing.Item

namespace GroovyShell

/-! ### Interpolations by the tokens that open and close them -/

/-- The interpolations open behind a token, given those open before it.  The text
    of the token that begins a string says how that string is delimited. -/
def Token.nestingAfter (t : Token) (nesting : List Interpolation) : List Interpolation :=
  match t.kind, nesting with
  | .stringStart, _ => ⟨t.text.beginsWith ['"', '"', '"'], 0⟩ :: nesting
  | .stringEnd, _ :: outer => outer
  | .opening .brace, ⟨triple, depth⟩ :: outer => ⟨triple, depth + 1⟩ :: outer
  | .closing .brace, ⟨triple, depth⟩ :: outer => ⟨triple, depth - 1⟩ :: outer
  | _, _ => nesting

/-- Whether tokens of this kind are neither braces, nor parts of strings, nor the
    end of the input. -/
def TokenKind.isPlain : TokenKind → Bool
  | .name | .keyword _ | .dot _ | .number | .comma | .colon | .semicolon | .operator => true
  | .opening bracket | .closing bracket => bracket ≠ .brace
  | _ => false

theorem Token.nestingAfter_plain {t : Token} (h : t.kind.isPlain = true)
    (nesting : List Interpolation) : t.nestingAfter nesting = nesting := by
  unfold nestingAfter
  split <;> simp_all [TokenKind.isPlain]

theorem dotItem_isPlain {t : Text} {kind : TokenKind} {n : Nat}
    (h : dotItem t = some (kind, n)) : kind.isPlain = true := by
  unfold dotItem at h
  split at h <;> simp at h <;> simp [← h.1, TokenKind.isPlain]

theorem markItem_isPlain {t : Text} {kind : TokenKind} {n : Nat}
    (h : markItem t = some (kind, n)) : kind.isPlain = true := by
  unfold markItem at h
  split at h <;> simp at h <;> simp [← h.1, TokenKind.isPlain]

theorem numberItem_isPlain {t : Text} {kind : TokenKind} {n : Nat}
    (h : numberItem t = some (kind, n)) : kind.isPlain = true := by
  unfold numberItem at h
  split at h
  · split at h <;> simp at h
    simp [← h.1, TokenKind.isPlain]
  · simp at h

theorem wordKind_isPlain (word : Text) : (wordKind word).isPlain = true := by
  unfold wordKind
  split <;> rfl

theorem wordItem_isPlain {t : Text} {kind : TokenKind} {n : Nat}
    (h : wordItem t = some (kind, n)) : kind.isPlain = true := by
  unfold wordItem at h
  split at h
  · split at h <;> simp at h
    rw [← h.1]
    exact wordKind_isPlain _
  · simp at h

theorem operatorItem_isPlain {t : Text} {kind : TokenKind} {n : Nat}
    (h : operatorItem t = some (kind, n)) : kind.isPlain = true := by
  obtain ⟨op, _, he⟩ := Option.map_eq_some_iff.mp h
  simp only [Prod.mk.injEq] at he
  rw [← he.1]
  rfl

theorem plainItem_isPlain {t : Text} {kind : TokenKind} {n : Nat}
    (h : plainItem t = some (kind, n)) : kind.isPlain = true := by
  unfold plainItem at h
  simp only [Option.orElse_eq_orElse, Option.orElse_eq_or, Option.or_eq_some_iff] at h
  rcases h with h | ⟨_, h | ⟨_, h | ⟨_, h | ⟨_, h⟩⟩⟩⟩
  · exact dotItem_isPlain h
  · exact markItem_isPlain h
  · exact numberItem_isPlain h
  · exact wordItem_isPlain h
  · exact operatorItem_isPlain h

/-! ### Parts of strings -/

/-- Only a part between double quotes ends with `${`, and it holds that mark. -/
theorem partFrom_interpolated {style : StringStyle} {read n : Nat} {t : Text}
    (h : style.partFrom read t = .interpolated n) : style.quote = '"' ∧ read + 2 ≤ n := by
  fun_induction StringStyle.partFrom style read t with
  | case1 read => simp at h
  | case2 read => simp at h
  | case3 read c t ih =>
    obtain ⟨hquote, hn⟩ := ih h
    exact ⟨hquote, by omega⟩
  | case4 read t hopen hline => simp at h
  | case5 read c t _ _ _ hmark =>
    simp only [StringPart.interpolated.injEq] at h
    simp only [StringStyle.interpolatesAt, Bool.and_eq_true, beq_iff_eq] at hmark
    exact ⟨hmark.1, by omega⟩
  | case6 read c t => simp at h
  | case7 read c t _ _ _ _ _ ih =>
    obtain ⟨hquote, hn⟩ := ih h
    exact ⟨hquote, by omega⟩

theorem stringItem_token {whole cut kind : TokenKind} {triple : Bool}
    {nesting after : List Interpolation} {part : StringPart} {n : Nat}
    (h : stringItem whole cut triple nesting part = .token kind n after) :
    kind = whole ∧ after = nesting ∨
      kind = cut ∧ after = ⟨triple, 0⟩ :: nesting ∧ part = .interpolated n := by
  cases part with
  | closed length =>
    simp only [stringItem, Item.token.injEq] at h
    exact .inl ⟨h.1.symm, h.2.2.symm⟩
  | interpolated length =>
    simp only [stringItem, Item.token.injEq] at h
    exact .inr ⟨h.1.symm, h.2.2.symm, by rw [h.2.1]⟩
  | unterminated length => simp [stringItem] at h

theorem stringItem_unterminated {whole cut : TokenKind} {triple : Bool}
    {nesting after : List Interpolation} {part : StringPart} {n : Nat}
    (h : stringItem whole cut triple nesting part = .unterminated n after) :
    part = .unterminated n ∧ after = nesting := by
  cases part with
  | closed length => simp [stringItem] at h
  | interpolated length => simp [stringItem] at h
  | unterminated length =>
    simp only [stringItem, Item.unterminated.injEq] at h
    exact ⟨by rw [h.1], h.2.symm⟩

theorem Text.beginsWith_take {t head : Text} {n : Nat} (h : head.length ≤ n) :
    beginsWith (t.take n) head = t.beginsWith head := by
  rw [Bool.eq_iff_iff, beginsWith, beginsWith, List.isPrefixOf_iff_prefix,
    List.isPrefixOf_iff_prefix, List.prefix_take_iff]
  exact ⟨fun hp => hp.1, fun hp => ⟨hp, h⟩⟩

/-! ### Items -/

/-- `StringAhead nesting t triple resumed`: at the head of `t` a string begins, or
    the brace stands that closes the innermost interpolation and resumes the
    string around it.  `triple` says whether three quotes delimit the string. -/
inductive StringAhead (nesting : List Interpolation) : Text → Bool → Bool → Prop
  | opened {quote : Char} {t : Text} :
      quote = '\'' ∨ quote = '"' →
        StringAhead nesting (quote :: t) (t.beginsWith [quote, quote]) false
  | resumed {triple : Bool} {outer : List Interpolation} {t : Text} :
      nesting = ⟨triple, 0⟩ :: outer → StringAhead nesting ('\x7d' :: t) triple true

/-- The ways in which the first character decides what an item is. -/
inductive HeadItem (nesting : List Interpolation) (c : Char) (t : Text) (item : Item) : Prop
  | brace {kind : TokenKind} {after : List Interpolation} :
      item = .token kind 1 after → kind = .opening .brace ∨ kind = .closing .brace →
        (∀ text p, after = Token.nestingAfter ⟨kind, text, p⟩ nesting) →
          HeadItem nesting c t item
  | resumed {triple : Bool} {outer : List Interpolation} :
      item = stringItem .stringEnd .stringMiddle triple outer
          ((⟨'"', triple⟩ : StringStyle).partFrom 1 t) →
        c = '\x7d' → nesting = ⟨triple, 0⟩ :: outer → HeadItem nesting c t item
  | quoted :
      item = quotedItem nesting c t → c = '\'' ∨ c = '"' → HeadItem nesting c t item
  | plain {kind : TokenKind} {n : Nat} :
      item = .token kind n nesting → plainItem (c :: t) = some (kind, n) →
        HeadItem nesting c t item
  | unexpected : item = .unexpected c → HeadItem nesting c t item

theorem itemAt_head {nesting : List Interpolation} {c : Char} {t : Text} {item : Item}
    (h : itemAt nesting (c :: t) = item) : HeadItem nesting c t item := by
  rw [itemAt] at h
  split at h
  · rcases nesting with _ | ⟨⟨triple, depth⟩, outer⟩
    · exact .brace h.symm (.inl rfl) (fun _ _ => rfl)
    · exact .brace h.symm (.inl rfl) (fun _ _ => rfl)
  · split at h
    · rename_i hbrace
      rcases nesting with _ | ⟨⟨triple, _ | depth⟩, outer⟩
      · exact .brace h.symm (.inr rfl) (fun _ _ => rfl)
      · exact .resumed h.symm hbrace rfl
      · exact .brace h.symm (.inr rfl) (fun _ _ => rfl)
    · split at h
      · rename_i hquote
        exact .quoted h.symm hquote
      · split at h
        · rename_i hplain
          exact .plain h.symm hplain
        · exact .unexpected h.symm

theorem quotedItem_nesting {nesting after : List Interpolation} {quote : Char} {t : Text}
    {kind : TokenKind} {n : Nat} (p : Position)
    (h : quotedItem nesting quote t = .token kind n after) :
    after = Token.nestingAfter ⟨kind, (quote :: t).take n, p⟩ nesting := by
  rcases stringItem_token h with ⟨rfl, rfl⟩ | ⟨rfl, rfl, hpart⟩
  · rfl
  · obtain ⟨hquote, hn⟩ := partFrom_interpolated hpart
    have hdouble : quote = '"' := hquote
    subst hdouble
    have hwidth : 0 < (StringStyle.at '"' t).delimiter.length := by
      simp only [StringStyle.delimiter, List.length_replicate]
      split <;> decide
    -- the token is long enough to show all three quotes
    have hthree : Text.beginsWith (('"' :: t).take n) ['"', '"', '"'] =
        Text.beginsWith t ['"', '"'] := by
      rw [Text.beginsWith_take (by simp; omega)]
      rfl
    simp only [Token.nestingAfter, hthree]
    rfl

/-- The lexer's stack of interpolations is the one its tokens spell out. -/
theorem itemAt_nesting {nesting after : List Interpolation} {t : Text} {kind : TokenKind} {n : Nat}
    (p : Position) (h : itemAt nesting t = .token kind n after) :
    after = Token.nestingAfter ⟨kind, t.take n, p⟩ nesting := by
  cases t with
  | nil =>
    simp only [itemAt, Item.token.injEq] at h
    simp [Token.nestingAfter, ← h.1, ← h.2.2]
  | cons c t =>
    cases itemAt_head h with
    | brace hitem _ hafter =>
      simp only [Item.token.injEq] at hitem
      obtain ⟨rfl, rfl, rfl⟩ := hitem
      exact hafter _ _
    | resumed hitem _ hnesting =>
      subst hnesting
      rcases stringItem_token hitem.symm with ⟨rfl, rfl⟩ | ⟨rfl, rfl, -⟩
      · rfl
      · rfl
    | quoted hitem _ => exact quotedItem_nesting p hitem.symm
    | plain hitem hplain =>
      simp only [Item.token.injEq] at hitem
      obtain ⟨rfl, rfl, rfl⟩ := hitem
      exact (Token.nestingAfter_plain (plainItem_isPlain hplain) _).symm
    | unexpected hitem => simp at hitem

/-- The end of the input stands at the head of nothing but the empty text. -/
theorem itemAt_end {nesting after : List Interpolation} {t : Text} {n : Nat}
    (h : itemAt nesting t = .token .endOfInput n after) : t = [] := by
  cases t with
  | nil => rfl
  | cons c t =>
    exfalso
    cases itemAt_head h with
    | brace hitem hkind _ =>
      simp only [Item.token.injEq] at hitem
      rcases hkind with rfl | rfl
      · simp at hitem
      · simp at hitem
    | resumed hitem _ _ => rcases stringItem_token hitem.symm with ⟨he, -⟩ | ⟨he, -⟩ <;> simp at he
    | quoted hitem _ => rcases stringItem_token hitem.symm with ⟨he, -⟩ | ⟨he, -⟩ <;> simp at he
    | plain hitem hplain =>
      simp only [Item.token.injEq] at hitem
      have hkind := plainItem_isPlain hplain
      simp [← hitem.1, TokenKind.isPlain] at hkind
    | unexpected hitem => simp at hitem

/-- A string without an end begins, or is resumed, at the head of the text. -/
theorem itemAt_unterminated {nesting after : List Interpolation} {t : Text} {n : Nat}
    (h : itemAt nesting t = .unterminated n after) :
    ∃ triple resumed, StringAhead nesting t triple resumed := by
  cases t with
  | nil => simp [itemAt] at h
  | cons c t =>
    cases itemAt_head h with
    | brace hitem _ _ => simp at hitem
    | resumed _ hc hnesting =>
      subst hc
      exact ⟨_, true, .resumed hnesting⟩
    | quoted _ hquote => exact ⟨_, false, .opened hquote⟩
    | plain hitem _ => simp at hitem
    | unexpected hitem => simp at hitem

theorem stringItem_ne_unexpected {whole cut : TokenKind} {triple : Bool}
    {nesting : List Interpolation} {part : StringPart} {c : Char} :
    stringItem whole cut triple nesting part ≠ .unexpected c := by
  cases part <;> simp [stringItem]

/-- An unexpected character stands at the head of the text. -/
theorem itemAt_unexpected {nesting : List Interpolation} {t : Text} {c : Char}
    (h : itemAt nesting t = .unexpected c) : ∃ rest, t = c :: rest := by
  cases t with
  | nil => simp [itemAt] at h
  | cons d t =>
    cases itemAt_head h with
    | brace hitem _ _ => simp at hitem
    | resumed hitem _ _ => exact absurd hitem.symm stringItem_ne_unexpected
    | quoted hitem _ => exact absurd hitem.symm stringItem_ne_unexpected
    | plain hitem _ => simp at hitem
    | unexpected hitem =>
      simp only [Item.unexpected.injEq] at hitem
      exact ⟨t, by rw [hitem]⟩

end GroovyShell
