/-
  GroovyShell/Proofs/GapText.lean
  ===============================
  **What a gap is made of.**

  `Lexing/Gap.lean` measures the gap before a token with a small machine.  Here
  a gap is described without the machine, by the comments and the white space it
  is put together from, and the machine is shown to measure nothing else
  (`gap_measures`).
-/
import GroovyShell.Lexing.Gap
import GroovyShell.Proofs.Places

namespace GroovyShell

/-! ### Gaps without the machine -/

/-- The end of a line, or of the whole text, stands at the head of `t`. -/
def Text.AtLineEnd (t : Text) : Prop := ∀ c ∈ t.head?, c = '\n'

/-- `GapText rest gap`: white space and comments make up `gap`, which stands
    before `rest`.  A comment that ends with its line goes on as far as the line
    does; a block comment ends with the first mark that closes it. -/
inductive GapText (rest : Text) : Text → Prop
  | none : GapText rest []
  | blank {c : Char} {t : Text} :
      isBlank c = true → GapText rest t → GapText rest (c :: t)
  | lineComment {body t : Text} :
      '\n' ∉ body → (t ++ rest).AtLineEnd → GapText rest t →
        GapText rest ('/' :: '/' :: body ++ t)
  | blockComment {body t : Text} :
      ¬ ['*', '/'] <:+: body → GapText rest t →
        GapText rest ('/' :: '*' :: body ++ '*' :: '/' :: t)

/-- White space at the end of a text is a gap. -/
theorem GapText.blanks {t : Text} (h : t.isBlankOnly = true) : GapText [] t := by
  induction t with
  | nil => exact .none
  | cons c t ih =>
    simp only [Text.isBlankOnly, List.all_cons, Bool.and_eq_true] at h
    exact .blank h.1 (ih h.2)

/-- `IsGap first rest gap`: `gap` separates what stands before it from `rest`.
    Only at the beginning of the whole text may it begin with a `#!` line. -/
inductive IsGap (first : Bool) (rest : Text) : Text → Prop
  | plain {gap : Text} : GapText rest gap → IsGap first rest gap
  | hashBang {body t : Text} :
      first = true → '\n' ∉ body → (t ++ rest).AtLineEnd → GapText rest t →
        IsGap first rest ('#' :: '!' :: body ++ t)

/-- A block comment that never ends stands at the head of a text. -/
def OpensComment (t : Text) : Prop :=
  ∃ body, t = '/' :: '*' :: body ∧ ¬ ['*', '/'] <:+: body

/-- White space or a comment stands at the head of a text. -/
def BeginsGap (t : Text) : Prop :=
  (∃ c ∈ t.head?, isBlank c = true) ∨
    t.beginsWith ['/', '/'] = true ∨ t.beginsWith ['/', '*'] = true

/-- What measuring has to find in a text of which `read` characters stand before
    `t`: a gap of the length reported, which does not go on.  A comment reported
    open stands behind such a gap. -/
def Measures (isGap : Text → Text → Prop) (read : Nat) (t : Text) (result : Gap) : Prop :=
  ∃ gap rest, t = gap ++ rest ∧ isGap rest gap ∧
    (result = .closed (read + gap.length) ∧ ¬ BeginsGap rest ∨
      result = .openComment (read + gap.length) ∧ OpensComment rest)

/-- The same for every state of the machine.  Inside a comment `t` begins with
    the rest of that comment. -/
def MeasuresFrom (read : Nat) (t : Text) (result : Gap) : GapState → Prop
  | .opening => Measures (IsGap true) read t result
  | .between => Measures GapText read t result
  | .line =>
    ∃ body rest, t = body ++ rest ∧ '\n' ∉ body ∧ rest.AtLineEnd ∧
      Measures GapText (read + body.length) rest result
  | .block start =>
    (¬ ['*', '/'] <:+: t ∧ result = .openComment start) ∨
      ∃ body rest, t = body ++ '*' :: '/' :: rest ∧ ¬ ['*', '/'] <:+: body ∧
        Measures GapText (read + body.length + 2) rest result

/-! ### Putting gaps together -/

/-- A measured gap goes on behind `front`. -/
theorem Measures.behind {isGap : Text → Text → Prop} {read next : Nat} {t : Text} {result : Gap}
    (front : Text) (h : Measures GapText next t result) (hnext : next = read + front.length)
    (joins : ∀ gap rest, t = gap ++ rest → GapText rest gap → isGap rest (front ++ gap)) :
    Measures isGap read (front ++ t) result := by
  obtain ⟨gap, rest, ht, hgap, hresult⟩ := h
  refine ⟨front ++ gap, rest, by simp [ht], joins gap rest ht hgap, ?_⟩
  simpa [hnext, Nat.add_assoc] using hresult

theorem Measures.plain {read : Nat} {t : Text} {result : Gap} (first : Bool)
    (h : Measures GapText read t result) : Measures (IsGap first) read t result := by
  obtain ⟨gap, rest, ht, hgap, hresult⟩ := h
  exact ⟨gap, rest, ht, .plain hgap, hresult⟩

theorem Measures.stop {isGap : Text → Text → Prop} {t : Text} (read : Nat) (h : isGap t [])
    (ends : ¬ BeginsGap t) : Measures isGap read t (.closed read) :=
  ⟨[], t, rfl, h, .inl ⟨rfl, ends⟩⟩

theorem not_beginsGap_nil : ¬ BeginsGap [] := by
  rintro (⟨c, hc, -⟩ | h | h)
  · simp at hc
  · simp [Text.beginsWith] at h
  · simp [Text.beginsWith] at h

theorem not_beginsGap_cons {c : Char} {t : Text} (hline : ∀ rest, c = '/' → t = '/' :: rest → False)
    (hblock : ∀ rest, c = '/' → t = '*' :: rest → False) (hblank : ¬ isBlank c = true) :
    ¬ BeginsGap (c :: t) := by
  rintro (⟨d, hd, hd'⟩ | h | h)
  · simp only [List.head?_cons, Option.mem_some_iff] at hd
    exact hblank (hd ▸ hd')
  · obtain ⟨rest, hrest⟩ := Text.beginsWith_iff.mp h
    simp only [List.cons_append, List.nil_append, List.cons.injEq] at hrest
    exact hline rest hrest.1 hrest.2
  · obtain ⟨rest, hrest⟩ := Text.beginsWith_iff.mp h
    simp only [List.cons_append, List.nil_append, List.cons.injEq] at hrest
    exact hblock rest hrest.1 hrest.2

theorem Measures.blank {read : Nat} {c : Char} {t : Text} {result : Gap} (hc : isBlank c = true)
    (h : Measures GapText (read + 1) t result) : Measures GapText read (c :: t) result := by
  apply h.behind [c] rfl
  intro gap rest _ hgap
  exact .blank hc hgap

theorem MeasuresFrom.lineComment {read : Nat} {t : Text} {result : Gap}
    (h : MeasuresFrom (read + 2) t result .line) :
    Measures GapText read ('/' :: '/' :: t) result := by
  obtain ⟨body, rest, rfl, hbody, hend, h⟩ := h
  apply h.behind ('/' :: '/' :: body) (by simp; omega)
  rintro gap rest rfl hgap
  exact .lineComment hbody hend hgap

theorem MeasuresFrom.hashBang {read : Nat} {t : Text} {result : Gap}
    (h : MeasuresFrom (read + 2) t result .line) :
    Measures (IsGap true) read ('#' :: '!' :: t) result := by
  obtain ⟨body, rest, rfl, hbody, hend, h⟩ := h
  apply h.behind ('#' :: '!' :: body) (by simp; omega)
  rintro gap rest rfl hgap
  exact .hashBang rfl hbody hend hgap

theorem MeasuresFrom.blockComment {read : Nat} {t : Text} {result : Gap}
    (h : MeasuresFrom (read + 2) t result (.block read)) :
    Measures GapText read ('/' :: '*' :: t) result := by
  rcases h with ⟨hopen, rfl⟩ | ⟨body, rest, rfl, hbody, h⟩
  · exact ⟨[], '/' :: '*' :: t, rfl, .none, .inr ⟨rfl, t, rfl, hopen⟩⟩
  · have hmark : '/' :: '*' :: (body ++ '*' :: '/' :: rest) =
        ('/' :: '*' :: body ++ ['*', '/']) ++ rest := by simp
    rw [hmark]
    apply h.behind _ (by simp; omega)
    intro gap rest _ hgap
    simpa using GapText.blockComment hbody hgap

/-! ### What is measured -/

/-- Whatever state the machine is in, it measures a gap. -/
theorem gapFrom_measures (state : GapState) (read : Nat) (t : Text) :
    MeasuresFrom read t (gapFrom state read t) state := by
  fun_induction gapFrom state read t with
  | case1 start read => exact .inl ⟨by simp, rfl⟩
  | case2 state read hstate =>
    cases state with
    | opening => exact Measures.stop read (.plain .none) not_beginsGap_nil
    | between => exact Measures.stop read .none not_beginsGap_nil
    | line =>
      refine ⟨[], [], rfl, by simp, by simp [Text.AtLineEnd], ?_⟩
      exact Measures.stop read .none not_beginsGap_nil
    | block start => exact absurd rfl (hstate start)
  | case3 start read t ih => exact .inr ⟨[], t, rfl, by simp, ih⟩
  | case4 start read c t hclose ih =>
    -- the mark cannot begin at `c`, so it is looked for in `t`
    have hhead : ∀ body, ¬ ['*', '/'] <:+: body → (∃ more, t = body ++ more) →
        ¬ ['*', '/'] <:+: c :: body := by
      rintro body hbody ⟨more, rfl⟩ hin
      rcases List.infix_cons_iff.mp hin with ⟨tail, htail⟩ | hin
      · simp only [List.cons_append, List.nil_append, List.cons.injEq] at htail
        obtain ⟨rfl, rfl⟩ := htail
        exact hclose _ rfl rfl
      · exact hbody hin
    rcases ih with ⟨hopen, hresult⟩ | ⟨body, rest, rfl, hbody, h⟩
    · exact .inl ⟨hhead t hopen ⟨[], by simp⟩, hresult⟩
    · refine .inr ⟨c :: body, rest, rfl, hhead body hbody ⟨_, rfl⟩, ?_⟩
      simpa [Nat.add_assoc, Nat.add_comm 1] using h
  | case5 read t ih =>
    exact ⟨[], '\n' :: t, rfl, by simp, by simp [Text.AtLineEnd], Measures.blank (by decide) ih⟩
  | case6 read c t hc ih =>
    obtain ⟨body, rest, rfl, hbody, hend, h⟩ := ih
    refine ⟨c :: body, rest, rfl, ?_, hend, ?_⟩
    · simpa using ⟨fun he => hc he.symm, hbody⟩
    · simpa [Nat.add_assoc, Nat.add_comm 1] using h
  | case7 read t ih => exact ih.hashBang
  | case8 read t ih => exact ih.lineComment.plain true
  | case9 read t ih => exact ih.blockComment.plain true
  | case10 read c t _ _ _ hc ih => exact (Measures.blank hc ih).plain true
  | case11 read c t _ hline hblock hc =>
    exact Measures.stop read (.plain .none) (not_beginsGap_cons hline hblock hc)
  | case12 read t ih => exact ih.lineComment
  | case13 read t ih => exact ih.blockComment
  | case14 read c t _ _ hc ih => exact Measures.blank hc ih
  | case15 read c t hline hblock hc =>
    exact Measures.stop read .none (not_beginsGap_cons hline hblock hc)

/-- The gap at the head of a text is measured from its first character. -/
theorem gap_measures (first : Bool) (t : Text) : Measures (IsGap first) 0 t (gap first t) := by
  cases first with
  | true => exact gapFrom_measures .opening 0 t
  | false => exact (gapFrom_measures .between 0 t).plain false

end GroovyShell
