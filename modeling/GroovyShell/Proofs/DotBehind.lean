/-
  GroovyShell/Proofs/DotBehind.lean
  =================================
  **A dot behind a text is a token of its own.**

  More to be seen behind a token could make it longer, so a glance is of no help
  here (`itemAt_of_glance` goes the other way).  But no token takes in a dot that
  ends the text: a number needs a digit behind its dot, and every mark that ends
  in a dot has a dot, a question mark or a star before it.
-/
import GroovyShell.Proofs.Rereading
import Mathlib.Data.List.Find

namespace GroovyShell

/-! ### Lengths that stop at a dot -/

/-- The characters that a dot behind them makes a longer mark of. -/
def dotMarks : List Char := ['.', '?', '*']

/-- `Stops f`: the length that `f` finds takes in no such character at the end of
    the text. -/
def Stops (f : Text → Nat) : Prop := ∀ c ∈ dotMarks, ∀ t, f (t ++ [c]) ≤ t.length

/-- No such character is of this class. -/
def Spares (p : Char → Bool) : Prop := dotMarks.any p = false

instance (p : Char → Bool) : Decidable (Spares p) := inferInstanceAs (Decidable (_ = _))

theorem Spares.eq_false {p : Char → Bool} (h : Spares p) {c : Char} (hc : c ∈ dotMarks) :
    p c = false := by
  simpa using List.any_eq_false.mp h c hc

namespace Stops

theorem zero : Stops fun _ => 0 := fun _ _ _ => Nat.zero_le _

theorem run {p : Char → Bool} (hp : Spares p) : Stops (Text.run p) := by
  intro mark hmark t
  induction t with
  | nil => simp [Text.run, hp.eq_false hmark]
  | cons c t ih =>
    cases hc : p c with
    | false => simp [Text.run, hc]
    | true => simpa [Text.run, hc] using ih

theorem andThen {f g : Text → Nat} (hf : Stops f) (hg : Stops g) :
    Stops fun t => f t + g (t.drop (f t)) := by
  intro mark hmark t
  have hhead := hf mark hmark t
  have htail := hg mark hmark (t.drop (f (t ++ [mark])))
  rw [← List.drop_append_of_le_length hhead, List.length_drop] at htail
  dsimp only
  omega

/-- What is shown up to a class that spares the last character is shown before it. -/
theorem showsAt_length {classes : List (Char → Bool)} {q : Char → Bool} {mark : Char}
    (hq : q mark = false) {t : Text} (h : Text.showsAt (classes ++ [q]) (t ++ [mark]) = true) :
    classes.length < t.length := by
  induction classes generalizing t with
  | nil =>
    rcases t with _ | ⟨c, t⟩
    · simp [Text.showsAt, hq] at h
    · simp
  | cons r rs ih =>
    rcases t with _ | ⟨c, t⟩
    · rcases rs with _ | ⟨_, _⟩ <;> simp [Text.showsAt] at h
    · simp only [List.cons_append, Text.showsAt, Bool.and_eq_true] at h
      simpa using ih h.2

theorem marked (classes : List (Char → Bool)) {q : Char → Bool} (hq : Spares q) {n : Nat}
    (hn : n ≤ classes.length + 1) {f g : Text → Nat} (hf : Stops f) (hg : Stops g) :
    Stops fun t => if Text.showsAt (classes ++ [q]) t then n + f (t.drop n) else g t := by
  intro mark hmark t
  dsimp only
  split
  · rename_i hshows
    have hlong := showsAt_length (hq.eq_false hmark) hshows
    have hfits : n ≤ t.length := by omega
    have htail := hf mark hmark (t.drop n)
    rw [← List.drop_append_of_le_length hfits, List.length_drop] at htail
    omega
  · exact hg mark hmark t

/-! ### Numbers -/

theorem digits : Stops (Text.run isDigitPart) := run (by decide)

theorem isDigit : Spares Char.isDigit := by decide

theorem fraction : Stops fractionLength := by
  rw [funext fractionLength_eq]
  exact marked [(· == '.')] isDigit (by decide) digits zero

theorem exponent : Stops exponentLength := by
  rw [funext exponentLength_eq]
  apply marked [isExponentMark, isSign] isDigit (by decide) digits
  exact marked [isExponentMark] isDigit (by decide) digits zero

theorem suffix : Stops suffixLength := by
  rw [funext suffixLength_eq]
  exact marked [] (by decide) (by decide) zero zero

theorem decimalTail : Stops decimalTailLength := (digits.andThen fraction).andThen exponent

theorem numberDigits (d : Char) : Stops (digitsLength d) := by
  unfold digitsLength
  by_cases hd : d = '0'
  · simp only [hd, if_true]
    exact marked [] (by decide) (by decide) (run (by decide)) decimalTail
  · simp only [hd, if_false]
    exact decimalTail

theorem numberTail (d : Char) : Stops (numberTailLength d) := by
  rw [funext (numberTailLength_eq d)]
  exact (numberDigits d).andThen suffix

end Stops

/-- A length that stops at a dot is the same without it. -/
theorem Settled.without_dot {f : Text → Nat} (hf : Settled f) (hstops : Stops f) (t : Text) :
    f (t ++ ['.']) = f t := by
  have hglance : Text.glance [] <+: Text.glance ['.'] := List.nil_prefix
  have hsame := hf.same hglance (hstops '.' (by decide) t)
  rw [List.append_nil] at hsame
  exact hsame.symm

/-! ### Plain items -/

/-- `EndsSolid t`: a dot behind `t` makes no longer mark of its last character. -/
def EndsSolid (t : Text) : Prop := ∀ c ∈ t.getLast?, c ∉ dotMarks

theorem EndsSolid.of_suffix {front t : Text} (h : EndsSolid (front ++ t)) : EndsSolid t := by
  intro c hc
  apply h
  rw [List.getLast?_append, hc]
  rfl

theorem EndsSolid.ne {c : Char} (h : EndsSolid [c]) : c ≠ '.' ∧ c ≠ '?' ∧ c ≠ '*' := by
  have hc := h c rfl
  simpa [dotMarks] using hc

/-- A dot that ends the text is part of no mark at its head but of the whole. -/
theorem Text.beginsWith_dot {t mark : Text} (hmark : mark ≠ t ++ ['.']) :
    beginsWith (t ++ ['.']) mark = t.beginsWith mark := by
  rw [Bool.eq_iff_iff, beginsWith, beginsWith, List.isPrefixOf_iff_prefix,
    List.isPrefixOf_iff_prefix, List.prefix_concat_iff]
  constructor
  · rintro (hwhole | hshort)
    · exact absurd hwhole hmark
    · exact hshort
  · exact .inr

section

variable {a : Char} {t : Text}

theorem dotItem_append_dot (h : EndsSolid (a :: t)) : dotItem (a :: (t ++ ['.'])) = dotItem (a :: t) := by
  rcases t with _ | ⟨b, t⟩
  · obtain ⟨hdot, hquestion, hstar⟩ := h.ne
    simp [dotItem_cons, hdot, hquestion, hstar]
  · rw [dotItem_cons, dotItem_cons]
    rfl

theorem markItem_append_dot (a : Char) (t : Text) : markItem (a :: (t ++ ['.'])) = markItem (a :: t) := by
  rcases t with _ | ⟨b, t⟩
  · simp [markItem_cons a ['.']]
  · rw [markItem_cons a (b :: t ++ ['.']), markItem_cons a (b :: t)]
    rfl

theorem numberItem_append_dot (a : Char) (t : Text) :
    numberItem (a :: (t ++ ['.'])) = numberItem (a :: t) := by
  rw [numberItem, numberItem, (Settled.numberTail a).without_dot (Stops.numberTail a)]

theorem wordItem_append_dot (a : Char) (t : Text) : wordItem (a :: (t ++ ['.'])) = wordItem (a :: t) := by
  have hword : (t ++ ['.']).takeWhile continuesName = t.takeWhile continuesName := by
    induction t with
    | nil => decide
    | cons c t ih => rw [List.cons_append, List.takeWhile_cons, List.takeWhile_cons, ih]
  rw [wordItem, wordItem, hword]

theorem operatorItem_append_dot (h : EndsSolid t) : operatorItem (t ++ ['.']) = operatorItem t := by
  have hdots : ∀ op ∈ operators, op.toList.getLast? = some '.' → op.toList = ['.', '.'] := by decide
  have hsame : ∀ op ∈ operators,
      Text.beginsWith (t ++ ['.']) op.toList = t.beginsWith op.toList := by
    intro op hop
    apply Text.beginsWith_dot
    intro hwhole
    have hlast : op.toList.getLast? = some '.' := by rw [hwhole]; simp
    have hone : t = ['.'] := by
      rw [hdots op hop hlast] at hwhole
      exact (List.append_inj_left' hwhole rfl).symm
    exact absurd (h '.' (by simp [hone])) (by decide)
  rw [operatorItem, operatorItem, List.find?_congr hsame]

theorem plainItem_append_dot (h : EndsSolid (a :: t)) :
    plainItem (a :: (t ++ ['.'])) = plainItem (a :: t) := by
  have hoperator := operatorItem_append_dot h
  rw [List.cons_append] at hoperator
  rw [plainItem, plainItem, dotItem_append_dot h, markItem_append_dot, numberItem_append_dot, wordItem_append_dot, hoperator]

end

/-! ### Tokens -/

theorem BeginsGap.of_dot {token rest : Text} (hsome : token ≠ [])
    (h : BeginsGap (token ++ (rest ++ ['.']))) : BeginsGap (token ++ rest) := by
  obtain ⟨c, tail, rfl⟩ := List.exists_cons_of_ne_nil hsome
  have hmark : ∀ mark : Text, mark.getLast? ≠ some '.' →
      Text.beginsWith (c :: tail ++ (rest ++ ['.'])) mark = Text.beginsWith (c :: tail ++ rest) mark := by
    intro mark hlast
    rw [← List.append_assoc]
    apply Text.beginsWith_dot
    rintro rfl
    exact hlast List.getLast?_concat
  rcases h with hblank | hbegins | hbegins
  · exact .inl hblank
  · exact .inr (.inl (by rwa [hmark _ (by decide)] at hbegins))
  · exact .inr (.inr (by rwa [hmark _ (by decide)] at hbegins))

/-- **A dot that ends the text changes no token before it.** -/
theorem itemAt_dot_behind {nesting after : List Interpolation} {token rest : Text} {kind : TokenKind}
    (h : itemAt nesting (token ++ rest) = .token kind token.length after)
    (inside : kind ≠ .endOfInput) (hsolid : EndsSolid (token ++ rest)) :
    itemAt nesting (token ++ (rest ++ ['.'])) = .token kind token.length after := by
  rcases token with _ | ⟨c, tail⟩
  · exact absurd (itemAt_token h inside).1 (by simp)
  simp only [List.cons_append, itemAt] at h hsolid ⊢
  split_ifs at h ⊢ with hopen hclose hquote
  · exact h
  · subst hclose
    exact closeBraceItem_of_glance (rest ++ ['.']) h
  · apply quotedItem_of_style _ h
    intro _
    have hmark : [c, c] ≠ tail ++ rest ++ ['.'] := by
      intro hwhole
      have hlast := congrArg List.getLast? hwhole
      rcases hquote with rfl | rfl <;> simp at hlast
    rw [StringStyle.at, StringStyle.at, ← List.append_assoc, Text.beginsWith_dot hmark]
  · rw [← List.append_assoc, plainItem_append_dot hsolid]
    exact h

theorem Lexer.Reads.dot {l after : Lexer} {gap : Text} {token : Token}
    (h : l.Reads gap token after) (inside : token.kind ≠ .endOfInput)
    (hsolid : EndsSolid (token.text ++ after.rest)) :
    (l.extend ['.']).Reads gap token (after.extend ['.']) where
  rest := by simp [Lexer.extend, h.rest]
  isGap := by
    apply h.isGap.congr
    obtain ⟨c, tail, htext⟩ := List.exists_cons_of_ne_nil (h.text_ne_nil inside)
    rw [htext]
    rfl
  ends hbegins := h.ends (hbegins.of_dot (h.text_ne_nil inside))
  item := itemAt_dot_behind h.item inside hsolid
  place := h.place
  offset := h.offset
  position := h.position

/-! ### How literals end -/

theorem EndsSolid.append {front t : Text} (h : EndsSolid t) (hsome : t ≠ []) :
    EndsSolid (front ++ t) := by
  intro c hc
  rw [List.getLast?_append_of_ne_nil front hsome] at hc
  exact h c hc

/-- A part that is closed ends with its delimiter. -/
theorem StringStyle.partFrom_closed {style : StringStyle} {read n : Nat} {t : Text}
    (h : style.partFrom read t = .closed n) :
    ∃ body rest, t = body ++ (style.delimiter ++ rest) ∧
      n = read + body.length + style.delimiter.length := by
  fun_induction StringStyle.partFrom style read t with
  | case1 read => simp at h
  | case2 read => simp at h
  | case3 read c t ih =>
    obtain ⟨body, rest, rfl, hn⟩ := ih h
    refine ⟨'\\' :: c :: body, rest, rfl, ?_⟩
    simp only [List.length_cons]
    omega
  | case4 read c t => simp at h
  | case5 read c t => simp at h
  | case6 read c t _ _ _ _ hclose =>
    obtain ⟨rest, hrest⟩ := Text.beginsWith_iff.mp hclose
    simp only [StringPart.closed.injEq] at h
    exact ⟨[], rest, hrest, by simp [← h]⟩
  | case7 read c t _ _ _ _ _ ih =>
    obtain ⟨body, rest, rfl, hn⟩ := ih h
    refine ⟨c :: body, rest, rfl, ?_⟩
    simp only [List.length_cons]
    omega

/-- A string that ends where the text does ends it with a quote. -/
theorem StringStyle.endsSolid_of_closed {style : StringStyle} {read : Nat} {t : Text}
    (hquote : style.quote ∉ dotMarks) (h : style.partFrom read t = .closed (read + t.length)) :
    EndsSolid t := by
  obtain ⟨body, rest, rfl, hn⟩ := partFrom_closed h
  have hrest : rest = [] := by
    apply List.length_eq_zero_iff.mp
    simp only [List.length_append] at hn
    omega
  subst hrest
  rw [List.append_nil]
  apply EndsSolid.append
  · intro c hc
    have hmem := List.mem_of_getLast? hc
    rw [delimiter, List.mem_replicate] at hmem
    rw [hmem.2]
    exact hquote
  · exact List.ne_nil_of_length_pos style.delimiter_length_pos

/-- The kinds of tokens that a literal can end with. -/
def TokenKind.endsLiteral : TokenKind → Bool
  | .string | .stringEnd | .number | .closing .square => true
  | _ => false

theorem endsSolid_of_part {whole cut kind : TokenKind} {triple : Bool}
    {nesting after : List Interpolation} {style : StringStyle} {front t : Text}
    (h : stringItem whole cut triple nesting (style.partFrom front.length t) =
      .token kind (front ++ t).length after)
    (hquote : style.quote = '\'' ∨ style.quote = '"') (hcut : cut.endsLiteral = false)
    (hkind : kind.endsLiteral = true) : EndsSolid (front ++ t) := by
  have hclosed : style.partFrom front.length t = .closed (front.length + t.length) := by
    rw [List.length_append] at h
    cases hpart : style.partFrom front.length t with
    | closed n =>
      simp only [hpart, stringItem, Item.token.injEq] at h
      rw [h.2.1]
    | interpolated n =>
      simp only [hpart, stringItem, Item.token.injEq] at h
      rw [h.1, hkind] at hcut
      simp at hcut
    | unterminated n => simp [hpart, stringItem] at h
  have hmark : style.quote ∉ dotMarks := by
    rcases hquote with hquote | hquote <;> rw [hquote] <;> decide
  apply (StringStyle.endsSolid_of_closed hmark hclosed).append
  rintro rfl
  simp [StringStyle.partFrom] at hclosed

theorem endsSolid_of_plain {t : Text} {kind : TokenKind} (h : plainItem t = some (kind, t.length))
    (hkind : kind.endsLiteral = true) : EndsSolid t := by
  rw [plainItem_eq_some] at h
  rcases h with hdot | ⟨-, hmark | ⟨-, hnumber | ⟨-, hword | ⟨-, hop⟩⟩⟩⟩
  · unfold dotItem at hdot
    split at hdot <;> simp at hdot <;> simp [← hdot.1, TokenKind.endsLiteral] at hkind
  · rcases t with _ | ⟨a, _ | ⟨b, t⟩⟩
    · simp [markItem] at hmark
    · intro c hc
      obtain rfl : a = c := by simpa using hc
      unfold markItem at hmark
      split at hmark <;> simp_all [dotMarks]
    · unfold markItem at hmark
      split at hmark <;> simp at hmark
  · intro c hc hdot
    obtain ⟨u, rfl⟩ := List.getLast?_eq_some_iff.mp hc
    rcases u with _ | ⟨d, u⟩
    · have hdigit := Stops.isDigit.eq_false hdot
      simp [numberItem, hdigit] at hnumber
    · have hstop := Stops.numberTail d c hdot u
      simp only [List.cons_append, numberItem] at hnumber
      split at hnumber
      · simp only [Option.some.injEq, Prod.mk.injEq, List.length_cons, List.length_append,
          List.length_nil] at hnumber
        omega
      · simp at hnumber
  · rcases t with _ | ⟨c, t⟩
    · simp [wordItem] at hword
    · simp only [wordItem] at hword
      split at hword
      · simp only [Option.some.injEq, Prod.mk.injEq] at hword
        obtain ⟨rfl, -⟩ := hword
        unfold wordKind at hkind
        split at hkind <;> simp [TokenKind.endsLiteral] at hkind
      · simp at hword
  · obtain ⟨op, -, hop⟩ := Option.map_eq_some_iff.mp hop
    simp only [Prod.mk.injEq] at hop
    simp [← hop.1, TokenKind.endsLiteral] at hkind

/-- A token that can end a literal ends in none of the characters that a dot would
    go on with. -/
theorem endsSolid_of_item {nesting after : List Interpolation} {t : Text} {kind : TokenKind}
    (h : itemAt nesting t = .token kind t.length after) (hkind : kind.endsLiteral = true) :
    EndsSolid t := by
  rcases t with _ | ⟨c, t⟩
  · intro c hc
    simp at hc
  cases itemAt_head h with
  | brace hitem hbrace _ =>
    simp only [Item.token.injEq] at hitem
    rw [hitem.1] at hkind
    rcases hbrace with rfl | rfl <;> simp [TokenKind.endsLiteral] at hkind
  | resumed hitem _ _ =>
    have hwhole : EndsSolid ([c] ++ t) := endsSolid_of_part hitem.symm (.inr rfl) rfl hkind
    exact hwhole
  | quoted hitem hquote =>
    -- the opening quotes, and the string behind them
    let width := (StringStyle.at c t).delimiter.length
    have hsplit : c :: t = (c :: t.take (width - 1)) ++ t.drop (width - 1) := by
      rw [List.cons_append, List.take_append_drop]
    have hwidth : (c :: t.take (width - 1)).length = width := by
      rw [List.length_cons, List.length_take]
      rcases StringStyle.width_cases c t with hone | ⟨hthree, hlong⟩
      · omega
      · omega
    rw [hsplit] at hitem ⊢
    have hpart : stringItem .string .stringStart (StringStyle.at c t).triple nesting
        ((StringStyle.at c t).partFrom (c :: t.take (width - 1)).length (t.drop (width - 1))) =
          .token kind (c :: t.take (width - 1) ++ t.drop (width - 1)).length after := by
      rw [hwidth]
      exact hitem.symm
    exact endsSolid_of_part hpart hquote rfl hkind
  | plain hitem hplain =>
    simp only [Item.token.injEq] at hitem
    obtain ⟨rfl, hn, -⟩ := hitem
    rw [← hn] at hplain
    exact endsSolid_of_plain hplain hkind
  | unexpected hitem => simp at hitem

end GroovyShell
