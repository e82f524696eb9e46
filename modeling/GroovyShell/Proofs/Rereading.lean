/-
  GroovyShell/Proofs/Rereading.lean
  =================================
  **One reading, described by the text alone.**

  A reading is taken apart into the gap that is skipped, the token behind it and
  what is then left (`Lexer.Reads`), and put together again from these
  (`Lexer.Reads.next`), so that texts can be changed and read anew without
  opening the lexer.  A reading that fails is taken apart in the same way, into the
  gap and what stands behind it that cannot be read (`Lexer.Fails`).  Gaps need the
  way back from what they are made of to what is measured; tokens are read the same
  as long as no more is seen behind them (`Lexer.Reads.extend`).
-/
import GroovyShell.Proofs.CursorToken
import GroovyShell.Proofs.ItemEnds

namespace GroovyShell

/-! ### Measuring goes through a gap -/

theorem gapFrom_blank {c : Char} (h : isBlank c = true) (read : Nat) (t : Text) :
    gapFrom .between read (c :: t) = gapFrom .between (read + 1) t := by
  have hslash : c ≠ '/' := by
    rintro rfl
    exact absurd h (by decide)
  simp [gapFrom, hslash, h]

theorem gapFrom_line {body t : Text} (hbody : '\n' ∉ body) (hend : t.AtLineEnd) (read : Nat) :
    gapFrom .line read (body ++ t) = gapFrom .between (read + body.length) t := by
  induction body generalizing read with
  | nil =>
    rcases t with _ | ⟨c, t⟩
    · rfl
    · obtain rfl : c = '\n' := hend c rfl
      rw [List.nil_append, gapFrom_blank (by decide)]
      simp [gapFrom]
  | cons c body ih =>
    simp only [List.mem_cons, not_or] at hbody
    have hc : c ≠ '\n' := fun he => hbody.1 he.symm
    rw [List.cons_append, gapFrom, if_neg hc, ih hbody.2, List.length_cons]
    congr 1
    omega

theorem gapFrom_block {body : Text} (hbody : ¬ ['*', '/'] <:+: body) (start read : Nat) (t : Text) :
    gapFrom (.block start) read (body ++ '*' :: '/' :: t) =
      gapFrom .between (read + body.length + 2) t := by
  induction body generalizing read with
  | nil => simp [gapFrom]
  | cons c body ih =>
    have htail : ¬ ['*', '/'] <:+: body :=
      fun hin => hbody (hin.trans (List.suffix_cons c body).isInfix)
    have hhead : ∀ rest, c = '*' → body ++ '*' :: '/' :: t = '/' :: rest → False := by
      rintro rest rfl hrest
      rcases body with _ | ⟨d, body⟩
      · simp at hrest
      · simp only [List.cons_append, List.cons.injEq] at hrest
        apply hbody
        rw [hrest.1]
        exact ⟨[], body, rfl⟩
    rw [List.cons_append, gapFrom, ih htail, List.length_cons]
    · congr 1
      omega
    · exact hhead

theorem GapText.measured {rest gap : Text} (h : GapText rest gap) (read : Nat) :
    gapFrom .between read (gap ++ rest) = gapFrom .between (read + gap.length) rest := by
  induction h generalizing read with
  | none => rfl
  | @blank c t hc _ ih =>
    rw [List.cons_append, gapFrom_blank hc, ih, List.length_cons]
    congr 1
    omega
  | @lineComment body t hbody hend _ ih =>
    simp only [List.cons_append, List.append_assoc, gapFrom]
    rw [gapFrom_line hbody hend, ih]
    congr 1
    simp
    omega
  | @blockComment body t hbody _ ih =>
    simp only [List.cons_append, List.append_assoc, gapFrom]
    rw [gapFrom_block hbody, ih]
    congr 1
    simp
    omega

/-- A gap that has been measured, with `n` more characters before it. -/
def Gap.behind (n : Nat) : Gap → Gap
  | .closed length => .closed (n + length)
  | .openComment start => .openComment (n + start)

theorem gapFrom_stop {t : Text} (h : ¬ BeginsGap t) (read : Nat) :
    gapFrom .between read t = .closed read := by
  rcases t with _ | ⟨c, t⟩
  · rfl
  · have hblank : isBlank c = false := by
      by_contra hblank
      exact h (.inl ⟨c, rfl, by simpa using hblank⟩)
    rw [gapFrom, hblank, if_neg (by simp)]
    · rintro rest rfl rfl
      exact h (.inr (.inl rfl))
    · rintro rest rfl rfl
      exact h (.inr (.inr rfl))

theorem gapFrom_block_open {t : Text} (h : ¬ ['*', '/'] <:+: t) (start read : Nat) :
    gapFrom (.block start) read t = .openComment start := by
  induction t generalizing read with
  | nil => rfl
  | cons c t ih =>
    rw [gapFrom, ih]
    · exact fun hin => h (hin.trans (List.suffix_cons c t).isInfix)
    · rintro rest rfl rfl
      exact h ⟨[], rest, rfl⟩

theorem gapFrom_open {t : Text} (h : OpensComment t) (read : Nat) :
    gapFrom .between read t = .openComment read := by
  obtain ⟨body, rfl, hbody⟩ := h
  rw [gapFrom, gapFrom_block_open hbody]

/-- Where the count begins makes no difference to what is measured. -/
theorem gapFrom_behind (n : Nat) (t : Text) :
    gapFrom .between n t = (gap false t).behind n := by
  obtain ⟨front, rest, rfl, hfront, hresult⟩ := gapFrom_measures .between 0 t
  rw [hfront.measured]
  rcases hresult with ⟨hclosed, hends⟩ | ⟨hopen, hcomment⟩
  · rw [gapFrom_stop hends, gap, if_neg (by simp), hclosed, Nat.zero_add]
    rfl
  · rw [gapFrom_open hcomment, gap, if_neg (by simp), hopen, Nat.zero_add]
    rfl

/-- But for a `#!` line the beginning of the text is like any other place. -/
theorem gapFrom_opening {t : Text} (h : t.beginsWith ['#', '!'] = false) (read : Nat) :
    gapFrom .opening read t = gapFrom .between read t := by
  rcases t with _ | ⟨c, t⟩
  · rfl
  have hhash : ∀ rest, c = '#' → t = '!' :: rest → False := by
    rintro rest rfl rfl
    simp [Text.beginsWith] at h
  by_cases hline : ∃ rest, c = '/' ∧ t = '/' :: rest
  · obtain ⟨rest, rfl, rfl⟩ := hline
    simp [gapFrom]
  by_cases hblock : ∃ rest, c = '/' ∧ t = '*' :: rest
  · obtain ⟨rest, rfl, rfl⟩ := hblock
    simp [gapFrom]
  have hnoline : ∀ rest, c = '/' → t = '/' :: rest → False :=
    fun rest hc ht => hline ⟨rest, hc, ht⟩
  have hnoblock : ∀ rest, c = '/' → t = '*' :: rest → False :=
    fun rest hc ht => hblock ⟨rest, hc, ht⟩
  rw [gapFrom, gapFrom]
  all_goals assumption

/-- A gap that does not go on is measured as it stands. -/
theorem gap_stop {first : Bool} {t : Text} (hends : ¬ BeginsGap t)
    (hmark : first = true → t.beginsWith ['#', '!'] = false) : gap first t = .closed 0 := by
  cases first with
  | true => rw [gap, if_pos rfl, gapFrom_opening (hmark rfl), gapFrom_stop hends]
  | false => exact gapFrom_stop hends 0

/-- Behind a gap, measuring goes on as if the text began there. -/
theorem IsGap.measured {first : Bool} {rest front : Text} (h : IsGap first rest front)
    (hsome : front ≠ []) : gap first (front ++ rest) = (gap false rest).behind front.length := by
  rw [← gapFrom_behind]
  cases h with
  | plain h =>
    have hmark : (front ++ rest).beginsWith ['#', '!'] = false := by
      obtain ⟨c, hc, hgap⟩ := h.head_mark hsome
      obtain ⟨t, rfl⟩ := List.head?_eq_some_iff.mp hc
      have hhash : c ≠ '#' := by
        rintro rfl
        revert hgap
        decide
      simp [Text.beginsWith, List.isPrefixOf, hhash.symm]
    have hplain : gap first (front ++ rest) = gapFrom .between 0 (front ++ rest) := by
      cases first with
      | true => exact gapFrom_opening hmark 0
      | false => rfl
    rw [hplain, h.measured, Nat.zero_add]
  | @hashBang body t hfirst hbody hend h =>
    subst hfirst
    simp only [List.cons_append, List.append_assoc, gap, if_true, gapFrom]
    rw [gapFrom_line hbody hend, h.measured]
    congr 1
    simp
    omega

/-- Of what follows a gap only the first character counts for the gap. -/
theorem GapText.congr {rest other gap : Text} (h : GapText rest gap)
    (hhead : other.head? = rest.head?) : GapText other gap := by
  induction h with
  | none => exact .none
  | blank hc _ ih => exact .blank hc ih
  | @lineComment body t hbody hend _ ih =>
    refine .lineComment hbody ?_ ih
    intro c hc
    rw [List.head?_append, hhead, ← List.head?_append] at hc
    exact hend c hc
  | blockComment hbody _ ih => exact .blockComment hbody ih

theorem IsGap.congr {first : Bool} {rest other gap : Text} (h : IsGap first rest gap)
    (hhead : other.head? = rest.head?) : IsGap first other gap := by
  cases h with
  | plain h => exact .plain (h.congr hhead)
  | @hashBang body t hfirst hbody hend h =>
    refine .hashBang hfirst hbody ?_ (h.congr hhead)
    intro c hc
    rw [List.head?_append, hhead, ← List.head?_append] at hc
    exact hend c hc

theorem BeginsGap.of_glance {token rest other : Text} (hglance : other.glance <+: rest.glance)
    (hsome : token ≠ []) (h : BeginsGap (token ++ other)) : BeginsGap (token ++ rest) := by
  obtain ⟨d, tail, rfl⟩ := List.exists_cons_of_ne_nil hsome
  have hline : ∀ c ∈ ['/', '/'], isBlank c = false := by simp [isBlank, inRanges]
  have hblock : ∀ c ∈ ['/', '*'], isBlank c = false := by simp [isBlank, inRanges]
  rcases h with hblank | hbegins | hbegins
  · exact .inl hblank
  · exact .inr (.inl (Text.beginsWith_of_glance hglance hline (by simp) hbegins))
  · exact .inr (.inr (Text.beginsWith_of_glance hglance hblock (by simp) hbegins))

/-! ### One reading, described by the text -/

theorem itemAt_hash (nesting : List Interpolation) (t : Text) :
    itemAt nesting ('#' :: t) = .unexpected '#' := by
  have hoperator : operatorItem ('#' :: t) = none := by
    have hhead : ∀ op ∈ operators, op.toList.head? ≠ some '#' ∧ op.toList ≠ [] := by decide
    simp only [operatorItem, Option.map_eq_none_iff, List.find?_eq_none]
    intro op hop hbegins
    obtain ⟨rest, hrest⟩ := Text.beginsWith_iff.mp hbegins
    obtain ⟨hne, hsome⟩ := hhead op hop
    obtain ⟨d, tail, htail⟩ := List.exists_cons_of_ne_nil hsome
    rw [htail] at hrest hne
    simp only [List.cons_append, List.cons.injEq] at hrest
    simp [← hrest.1] at hne
  have hword : startsName '#' = false := by decide
  simp [itemAt, plainItem, dotItem_cons, markItem, numberItem, wordItem, hword, hoperator]

namespace Lexer

/-- `l.Reads gap token after`: `l` reads `token` behind `gap` and then stands as
    `after`, told from the text alone. -/
structure Reads (l : Lexer) (gap : Text) (token : Token) (after : Lexer) : Prop where
  rest : l.rest = gap ++ (token.text ++ after.rest)
  isGap : IsGap (l.offset == 0) (token.text ++ after.rest) gap
  ends : ¬ BeginsGap (token.text ++ after.rest)
  item : itemAt l.nesting (token.text ++ after.rest) =
    .token token.kind token.text.length after.nesting
  place : token.position = l.position.after gap
  offset : after.offset = l.offset + (gap ++ token.text).length
  position : after.position = l.position.after (gap ++ token.text)

/-- A gap is skipped before anything else is done. -/
theorem next_through {l : Lexer} {front rest : Text} (hrest : l.rest = front ++ rest)
    (hfront : IsGap (l.offset == 0) rest front) (hsome : front ≠ []) :
    l.next = (l.skip front.length).next := by
  have hpos : 0 < front.length := List.length_pos_iff.mpr hsome
  have hhere : (l.skip front.length).rest = rest := by simp [skip, hrest]
  have hlater : ((l.skip front.length).offset == 0) = false := by
    simp only [skip, hrest, List.take_left, beq_eq_false_iff_ne]
    omega
  unfold next
  rw [hlater, hhere, hrest, hfront.measured hsome]
  cases gap false rest with
  | closed length => simp only [Gap.behind, skip_add]
  | openComment start => simp only [Gap.behind, skip_add, List.length_append]

/-- Where no gap begins, the item is read at once. -/
theorem next_at {l : Lexer} (hends : ¬ BeginsGap l.rest)
    (hmark : l.offset = 0 → l.rest.beginsWith ['#', '!'] = false) : l.next = l.readItem := by
  unfold next
  rw [gap_stop hends (by simpa using hmark)]
  simp only [skip_zero]
  rfl

/-- Behind a gap the item that stands there is read. -/
theorem next_behind {l : Lexer} {gap rest : Text} (hrest : l.rest = gap ++ rest)
    (hgap : IsGap (l.offset == 0) rest gap) (hends : ¬ BeginsGap rest)
    (hmark : l.offset = 0 → gap = [] → rest.beginsWith ['#', '!'] = false) :
    l.next = (l.skip gap.length).readItem := by
  have hhere : (l.skip gap.length).rest = rest := by simp [skip, hrest]
  by_cases hsome : gap = []
  · subst hsome
    rw [List.length_nil, skip_zero]
    apply next_at
    · rw [hrest]
      exact hends
    · intro hstart
      rw [hrest]
      exact hmark hstart rfl
  · rw [next_through hrest hgap hsome]
    apply next_at
    · rw [hhere]
      exact hends
    · intro hstart
      have hpos := List.length_pos_iff.mpr hsome
      simp only [skip, hrest, List.take_left] at hstart
      omega

theorem Reads.next {l after : Lexer} {gap : Text} {token : Token} (h : l.Reads gap token after) :
    l.next = (.ok token, after) := by
  have hhere : (l.skip gap.length).rest = token.text ++ after.rest := by simp [skip, h.rest]
  have hmark : (token.text ++ after.rest).beginsWith ['#', '!'] = false := by
    by_contra hhash
    obtain ⟨rest, hrest⟩ := Text.beginsWith_iff.mp (by simpa using hhash)
    have hitem := h.item
    rw [hrest, List.cons_append, itemAt_hash] at hitem
    simp at hitem
  have hread : l.next = (l.skip gap.length).readItem :=
    next_behind h.rest h.isGap h.ends fun _ _ => hmark
  have hplace : (l.skip gap.length).position = token.position := by simp [skip, h.rest, h.place]
  have hafter : { (l.skip gap.length).skip token.text.length with nesting := after.nesting } =
      after := by
    rw [← skip_add]
    obtain ⟨rest, offset, position, nesting⟩ := after
    have htaken : l.rest.take (gap.length + token.text.length) = gap ++ token.text := by
      rw [h.rest, ← List.append_assoc, ← List.length_append, List.take_left]
    have hrest : l.rest.drop (gap.length + token.text.length) = rest := by
      rw [h.rest, ← List.append_assoc, ← List.length_append, List.drop_left]
    simp only [skip, htaken, hrest, ← h.offset, ← h.position]
  rw [hread, readItem, hhere]
  have hnesting : (l.skip gap.length).nesting = l.nesting := rfl
  simp only [hnesting, h.item, List.take_left, hplace, hafter]

theorem reads_of_next {l after : Lexer} {token : Token} (h : l.next = (.ok token, after)) :
    ∃ gap, l.Reads gap token after := by
  obtain ⟨gap, rest, hrest, hgap, hresult⟩ := gap_measures (l.offset == 0) l.rest
  have hhere : (l.skip gap.length).rest = rest := by simp [skip, hrest]
  unfold next at h
  rcases hresult with ⟨hclosed, hends⟩ | ⟨hopen, -⟩
  · rw [hclosed, Nat.zero_add] at h
    simp only [hhere] at h
    split at h
    · rename_i kind length nesting hitem
      simp only [Prod.mk.injEq, Except.ok.injEq] at h
      obtain ⟨rfl, rfl⟩ := h
      have hlength : (rest.take length).length = length := by
        rw [List.length_take, Nat.min_eq_left (itemAt_le hitem)]
      have hsplit : rest.take length ++ ((l.skip gap.length).skip length).rest = rest := by
        simp [skip, hrest]
      refine ⟨gap, ?_, ?_, ?_, ?_, ?_, ?_, ?_⟩
      · rw [hsplit, hrest]
      · rw [hsplit]
        exact hgap
      · rw [hsplit]
        exact hends
      · rw [hsplit, hlength]
        exact hitem
      · simp [skip, hrest]
      · simp [skip, hrest, Nat.add_assoc]
      · simp [skip, hrest]
    · simp at h
    · simp at h
  · rw [hopen] at h
    simp at h

theorem Reads.text_ne_nil {l after : Lexer} {gap : Text} {token : Token}
    (h : l.Reads gap token after) (inside : token.kind ≠ .endOfInput) : token.text ≠ [] := by
  intro hnil
  have hpos := (itemAt_token h.item inside).1
  simp [hnil] at hpos

/-- The end of the input is read behind a gap, and leaves everything as it is. -/
theorem Reads.atEnd {l after : Lexer} {gap : Text} {token : Token} (h : l.Reads gap token after)
    (atEnd : token.kind = .endOfInput) :
    l.rest = gap ∧ IsGap (l.offset == 0) [] gap ∧ after.nesting = l.nesting := by
  have hitem := h.item
  rw [atEnd] at hitem
  have hnil := itemAt_end hitem
  have hgap := h.isGap
  rw [hnil] at hitem hgap
  simp only [itemAt, Item.token.injEq] at hitem
  exact ⟨by rw [h.rest, hnil, List.append_nil], hgap, hitem.2.2.symm⟩

/-- A lexer with more text behind what it is to read. -/
def extend (l : Lexer) (more : Text) : Lexer := { l with rest := l.rest ++ more }

/-- **A token is read the same with more text behind it**, as long as a glance
    behind the token shows the same. -/
theorem Reads.extend {l after : Lexer} {gap : Text} {token : Token} {more : Text}
    (h : l.Reads gap token after) (inside : token.kind ≠ .endOfInput)
    (hglance : (after.rest ++ more).glance = after.rest.glance) :
    (l.extend more).Reads gap token (after.extend more) where
  rest := by simp [Lexer.extend, h.rest]
  isGap := by
    apply h.isGap.congr
    obtain ⟨c, tail, htext⟩ := List.exists_cons_of_ne_nil (h.text_ne_nil inside)
    rw [htext]
    rfl
  ends hbegins := h.ends (hbegins.of_glance (by rw [Lexer.extend, hglance]) (h.text_ne_nil inside))
  item := itemAt_of_glance h.item inside (by rw [Lexer.extend, hglance])
  place := h.place
  offset := h.offset
  position := h.position

/-! ### A failing reading, described by the text -/

/-- What a reading fails at, and the text that stands there.  Only a string or an
    unexpected character is an item that was looked at. -/
inductive FailsAt (nesting : List Interpolation) (rest : Text) : LexFault → Prop
  | comment : OpensComment rest → FailsAt nesting rest .unterminatedComment
  | string {n : Nat} {after : List Interpolation} :
      itemAt nesting rest = .unterminated n after → FailsAt nesting rest .unterminatedString
  | char {c : Char} : itemAt nesting rest = .unexpected c → FailsAt nesting rest (.unexpectedChar c)

theorem FailsAt.ne_nil {nesting : List Interpolation} {rest : Text} {fault : LexFault}
    (h : FailsAt nesting rest fault) : rest ≠ [] := by
  rintro rfl
  cases h with
  | comment hcomment =>
    obtain ⟨body, hbody, -⟩ := hcomment
    simp at hbody
  | string hitem => simp [itemAt] at hitem
  | char hitem => simp [itemAt] at hitem

/-- `l.Fails gap ahead fault`: behind `gap`, `l` fails at the head of `ahead`, told
    from the text alone. -/
structure Fails (l : Lexer) (gap ahead : Text) (fault : LexFault) : Prop where
  rest : l.rest = gap ++ ahead
  isGap : IsGap (l.offset == 0) ahead gap
  unmarked : l.offset = 0 → gap = [] → ahead.beginsWith ['#', '!'] = false
  ends : fault ≠ .unterminatedComment → ¬ BeginsGap ahead
  failsAt : FailsAt l.nesting ahead fault

/-- A comment that never ends is met at once. -/
theorem next_openComment {l : Lexer} (h : OpensComment l.rest) :
    l.next = (.error (.at .unterminatedComment l.position), l.skip l.rest.length) := by
  have hmark : l.rest.beginsWith ['#', '!'] = false := by
    obtain ⟨body, hbody, -⟩ := h
    rw [hbody]
    rfl
  have hgap : gap (l.offset == 0) l.rest = .openComment 0 := by
    by_cases hstart : l.offset = 0
    · rw [gap, if_pos (by simpa using hstart), gapFrom_opening hmark, gapFrom_open h]
    · rw [gap, if_neg (by simpa using hstart), gapFrom_open h]
  rw [next, hgap]
  simp only [skip_zero]

theorem Fails.next {l : Lexer} {gap rest : Text} {fault : LexFault} (h : l.Fails gap rest fault) :
    ∃ after, l.next = (.error (.at fault (l.position.after gap)), after) := by
  have hhere : (l.skip gap.length).rest = rest := by simp [skip, h.rest]
  have hplace : (l.skip gap.length).position = l.position.after gap := by simp [skip, h.rest]
  have hnesting : (l.skip gap.length).nesting = l.nesting := rfl
  cases h.failsAt with
  | comment hcomment =>
    by_cases hsome : gap = []
    · subst hsome
      have hrest : l.rest = rest := h.rest
      exact ⟨_, next_openComment (hrest ▸ hcomment)⟩
    · rw [next_through h.rest h.isGap hsome, ← hplace]
      exact ⟨_, next_openComment (hhere.symm ▸ hcomment)⟩
  | string hitem =>
    rw [next_behind h.rest h.isGap (h.ends (by simp)) h.unmarked, readItem, hhere, hnesting, hitem,
      ← hplace]
    exact ⟨_, rfl⟩
  | char hitem =>
    rw [next_behind h.rest h.isGap (h.ends (by simp)) h.unmarked, readItem, hhere, hnesting, hitem,
      ← hplace]
    exact ⟨_, rfl⟩

/-- A `#!` line at the beginning is skipped. -/
theorem gap_hashBang {t : Text} (h : t.beginsWith ['#', '!'] = true) :
    gap true t ≠ .closed 0 ∧ gap true t ≠ .openComment 0 := by
  obtain ⟨rest, rfl⟩ := Text.beginsWith_iff.mp h
  have hmeasured : MeasuresFrom 2 rest (gapFrom .line 2 rest) .line := gapFrom_measures .line 2 rest
  obtain ⟨line, more, -, -, -, front, behind, -, -, hresult⟩ := hmeasured
  have hgap : gap true (['#', '!'] ++ rest) = gapFrom .line 2 rest := rfl
  rw [hgap]
  rcases hresult with ⟨hclosed, -⟩ | ⟨hopen, -⟩
  · rw [hclosed]
    simp
  · rw [hopen]
    simp

theorem fails_of_next {l after : Lexer} {e : LexError} (h : l.next = (.error e, after)) :
    ∃ gap rest, l.Fails gap rest e.fault ∧ e = .at e.fault (l.position.after gap) := by
  obtain ⟨gap, rest, hrest, hgap, hresult⟩ := gap_measures (l.offset == 0) l.rest
  have hhere : (l.skip gap.length).rest = rest := by simp [skip, hrest]
  have hplace : (l.skip gap.length).position = l.position.after gap := by simp [skip, hrest]
  have hunmarked : l.offset = 0 → gap = [] → rest.beginsWith ['#', '!'] = false := by
    rintro hstart rfl
    by_contra hmark
    obtain ⟨hclosed, hopen⟩ := gap_hashBang (by simpa using hmark)
    rw [hrest, hstart] at hresult
    rcases hresult with ⟨hnone, -⟩ | ⟨hnone, -⟩
    · exact hclosed hnone
    · exact hopen hnone
  refine ⟨gap, rest, ?_⟩
  rw [next] at h
  rcases hresult with ⟨hclosed, hends⟩ | ⟨hopen, hcomment⟩
  · rw [hclosed, Nat.zero_add] at h
    simp only [hhere] at h
    split at h
    · simp at h
    · rename_i hitem
      simp only [Prod.mk.injEq, Except.error.injEq] at h
      rw [← h.1, ← hplace]
      exact ⟨⟨hrest, hgap, hunmarked, fun _ => hends, .string hitem⟩, rfl⟩
    · rename_i hitem
      simp only [Prod.mk.injEq, Except.error.injEq] at h
      rw [← h.1, ← hplace]
      exact ⟨⟨hrest, hgap, hunmarked, fun _ => hends, .char hitem⟩, rfl⟩
  · rw [hopen, Nat.zero_add] at h
    simp only [Prod.mk.injEq, Except.error.injEq] at h
    rw [← h.1, ← hplace]
    exact ⟨⟨hrest, hgap, hunmarked, fun hne => absurd rfl hne, .comment hcomment⟩, rfl⟩

/-! ### Runs -/

theorem run_eq (l : Lexer) :
    l.run =
      match l.next with
      | (.error e, after) => ⟨[], .error e, after⟩
      | (.ok token, after) =>
        if token.kind = .endOfInput then ⟨[], .ok token, after⟩
        else { after.run with tokens := token :: after.run.tokens } := by
  rw [run]
  split
  · rename_i hnext
    rw [hnext]
  · rename_i hnext
    rw [hnext]
    rfl

theorem run_token {l after : Lexer} {token : Token} (h : l.next = (.ok token, after))
    (inside : token.kind ≠ .endOfInput) :
    l.run = { after.run with tokens := token :: after.run.tokens } := by
  rw [run_eq, h]
  exact if_neg inside

theorem run_end {l after : Lexer} {token : Token} (h : l.next = (.ok token, after))
    (atEnd : token.kind = .endOfInput) : l.run = ⟨[], .ok token, after⟩ := by
  rw [run_eq, h]
  exact if_pos atEnd

theorem run_error {l after : Lexer} {e : LexError} (h : l.next = (.error e, after)) :
    l.run = ⟨[], .error e, after⟩ := by
  rw [run_eq, h]

theorem run_congr {l q : Lexer} (h : l.next = q.next) : l.run = q.run := by
  rw [run_eq, h, ← run_eq]

/-- The tokens of a single line all stand on it. -/
theorem run_line {l : Lexer} (h : '\n' ∉ l.rest) :
    ∀ token ∈ l.run.tokens, token.position.line = l.position.line := by
  fun_induction run l with
  | case1 l e after hnext => simp
  | case2 l token after hnext atEnd => simp
  | case3 l token after hnext inside scan ih =>
    obtain ⟨gap, hreads⟩ := reads_of_next hnext
    rw [hreads.rest] at h
    simp only [List.mem_append, not_or] at h
    obtain ⟨hgap, htoken, hrest⟩ := h
    have hafter : after.position.line = l.position.line := by
      rw [hreads.position, Position.after_line (by simp [hgap, htoken])]
    intro t ht
    rcases List.mem_cons.mp ht with rfl | ht
    · rw [hreads.place, Position.after_line hgap]
    · rw [ih hrest t ht, hafter]

end Lexer

theorem tokensOf_eq_ok {source : Text} {tokens : List Token} :
    tokensOf source = .ok tokens ↔
      (∃ eof, (lexAll source).ending = .ok eof) ∧ (lexAll source).tokens = tokens := by
  simp only [tokensOf]
  cases hend : (lexAll source).ending with
  | ok eof => simp
  | error e => simp

end GroovyShell
