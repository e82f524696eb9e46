/-
  GroovyShell/Proofs/TrailingBlanks.lean
  ======================================
  **White space at the end of a statement finishes nothing.**

  A text may stop in the middle of anything: in a string, behind a backslash, in a
  comment, behind half an operator.  White space behind it is then taken in by
  the string or the comment, or is a gap; it never completes what was begun.  So
  the same tokens are read, and reading fails at the same place or not at all
  (`Lexer.run_extend_blanks`).  A failure is taken apart and put together again
  from the text alone (`Lexer.Fails`), as a reading is.
-/
import GroovyShell.Proofs.DeclarationLines
import GroovyShell.Proofs.OpenQuote
import GroovyShell.Proofs.StatementLines
import Mathlib.Data.List.Find
import Mathlib.Data.List.TakeWhile

namespace GroovyShell

section

variable {blanks : Text}

/-! ### Marks are not completed -/

namespace Text

theorem isBlank_of_mem (hblanks : blanks.isBlankOnly = true) {c : Char} (hc : c ∈ blanks) :
    isBlank c = true :=
  List.all_eq_true.mp hblanks c hc

theorem isBlankOnly_of_suffix {t : Text} (hblanks : blanks.isBlankOnly = true)
    (h : t <:+ blanks) : t.isBlankOnly = true := by
  apply List.all_eq_true.mpr
  intro c hc
  exact isBlank_of_mem hblanks (h.subset hc)

theorem glance_append_blanks (hblanks : blanks.isBlankOnly = true) (t : Text) :
    (t ++ blanks).glance = t.glance := by
  cases blanks with
  | nil => rw [List.append_nil]
  | cons c rest => exact glance_append_blank t (isBlank_of_mem hblanks List.mem_cons_self) rest

/-- White space at the end completes no mark. -/
theorem beginsWith_append_blanks {mark : Text} (hblanks : blanks.isBlankOnly = true)
    (hmark : mark.any isBlank = false) (t : Text) :
    (t ++ blanks).beginsWith mark = t.beginsWith mark := by
  rw [Bool.eq_iff_iff, beginsWith, beginsWith, List.isPrefixOf_iff_prefix,
    List.isPrefixOf_iff_prefix]
  constructor
  · intro h
    rcases List.prefix_or_prefix_of_prefix h (List.prefix_append t blanks) with hshort | hlong
    · exact hshort
    · obtain ⟨tail, rfl⟩ := hlong
      have htail : tail <+: blanks := (List.prefix_append_right_inj t).mp h
      have hnone : tail = [] := by
        apply List.eq_nil_iff_forall_not_mem.mpr
        intro c hc
        have hblank := isBlank_of_mem hblanks (htail.subset hc)
        exact List.any_eq_false.mp hmark c (List.mem_append_right t hc) hblank
      rw [hnone, List.append_nil]
  · intro h
    exact h.trans (List.prefix_append t blanks)

theorem head?_append_blanks (hblanks : blanks.isBlankOnly = true) {c : Char}
    (hc : isBlank c = false) (t : Text) : (t ++ blanks).head? = some c ↔ t.head? = some c := by
  cases t with
  | nil =>
    simp only [List.nil_append, List.head?_nil, reduceCtorEq, iff_false]
    intro hhead
    rw [isBlank_of_mem hblanks (List.mem_of_mem_head? hhead)] at hc
    simp at hc
  | cons d t => rfl

/-- A text with white space behind it is, from any line on, the same text with white
    space behind it. -/
theorem dropLines_append_blanks (hblanks : blanks.isBlankOnly = true) (n : Nat) (t : Text) :
    ∃ later : Text, later.isBlankOnly = true ∧
      (t ++ blanks).dropLines n = t.dropLines n ++ later := by
  induction n generalizing t blanks with
  | zero => exact ⟨blanks, hblanks, rfl⟩
  | succ n ih =>
    simp only [dropLines]
    by_cases hline : (t.dropWhile (· != '\n')).isEmpty = true
    · -- the text has no further line, so only white space is left
      have hlater : isBlankOnly ((blanks.dropWhile (· != '\n')).drop 1) = true := by
        apply isBlankOnly_of_suffix hblanks
        exact (List.drop_suffix _ _).trans (List.dropWhile_suffix _)
      have hsplit := ih hlater []
      rw [List.dropWhile_append, if_pos hline, List.isEmpty_iff.mp hline]
      simpa using hsplit
    · have hsome : t.dropWhile (· != '\n') ≠ [] := fun hnil => hline (List.isEmpty_iff.mpr hnil)
      obtain ⟨c, rest, hrest⟩ := List.exists_cons_of_ne_nil hsome
      rw [List.dropWhile_append, if_neg hline, hrest]
      exact ih hblanks rest

theorem startingAt_append_blanks (hblanks : blanks.isBlankOnly = true) (p : Position) (t : Text) :
    ∃ later : Text, later.isBlankOnly = true ∧
      (t ++ blanks).startingAt p = t.startingAt p ++ later := by
  obtain ⟨later, hlater, hlines⟩ := dropLines_append_blanks hblanks (p.line - 1) t
  refine ⟨later.drop (p.column - 1 - (t.dropLines (p.line - 1)).length), ?_, ?_⟩
  · exact isBlankOnly_of_suffix hlater (List.drop_suffix _ _)
  · rw [startingAt, hlines, List.drop_append]
    rfl

end Text

/-! ### Strings are not closed -/

namespace StringStyle

variable {style : StringStyle}

theorem delimiter_solid (hquote : style.quote = '\'' ∨ style.quote = '"') :
    style.delimiter.any isBlank = false := by
  rw [List.any_eq_false]
  intro c hc
  rw [delimiter, List.mem_replicate] at hc
  rw [hc.2]
  rcases hquote with hquote | hquote
  · rw [hquote]
    decide
  · rw [hquote]
    decide

theorem interpolatesAt_append_blanks (style : StringStyle) (hblanks : blanks.isBlankOnly = true)
    (t : Text) :
    style.interpolatesAt (t ++ blanks) = style.interpolatesAt t := by
  have hmark : List.any ['$', '\x7b'] isBlank = false := by decide
  rw [interpolatesAt, interpolatesAt, Text.beginsWith_append_blanks hblanks hmark]

/-- White space by itself ends no string. -/
theorem partFrom_blanks (hquote : style.quote = '\'' ∨ style.quote = '"')
    (hblanks : blanks.isBlankOnly = true) (read : Nat) :
    ∃ m, style.partFrom read blanks = .unterminated m := by
  induction blanks generalizing read with
  | nil => exact ⟨read, rfl⟩
  | cons c rest ih =>
    have hsolid := delimiter_solid hquote
    have hc : c ≠ '\\' := by
      rintro rfl
      exact absurd (Text.isBlank_of_mem hblanks List.mem_cons_self) (by decide)
    have hmark := interpolatesAt_append_blanks style hblanks []
    have hclose := Text.beginsWith_append_blanks hblanks hsolid []
    rw [List.nil_append] at hmark hclose
    have hopen : Text.beginsWith [] style.delimiter = false := by
      have hpos := delimiter_length_pos style
      cases hdelimiter : style.delimiter with
      | nil => simp [hdelimiter] at hpos
      | cons d tail => rfl
    rw [partFrom_cons hc, hmark, hclose, hopen]
    by_cases hline : c = '\n' ∧ ¬ style.triple = true
    · exact ⟨read, if_pos hline⟩
    · rw [if_neg hline]
      simpa [interpolatesAt, Text.beginsWith, List.isPrefixOf] using
        ih (Text.isBlankOnly_of_suffix hblanks (List.suffix_cons c rest)) (read + 1)

/-- A string that has not ended does not end with white space. -/
theorem partFrom_append_blanks (hquote : style.quote = '\'' ∨ style.quote = '"')
    (hblanks : blanks.isBlankOnly = true) {read n : Nat} {t : Text}
    (h : style.partFrom read t = .unterminated n) :
    ∃ m, style.partFrom read (t ++ blanks) = .unterminated m := by
  fun_induction StringStyle.partFrom style read t with
  | case1 read => exact partFrom_blanks hquote hblanks read
  | case2 read =>
    -- the backslash takes the first blank with it
    cases blanks with
    | nil => exact ⟨read + 1, rfl⟩
    | cons c rest =>
      exact partFrom_blanks hquote
        (Text.isBlankOnly_of_suffix hblanks (List.suffix_cons c rest)) (read + 2)
  | case3 read c t ih => exact ih h
  | case4 read c t hlone hpair hline =>
    have hc : c ≠ '\\' := by
      rintro rfl
      exact absurd hline.1 (by decide)
    exact ⟨read, by rw [List.cons_append, partFrom_cons hc, if_pos hline]⟩
  | case5 read c t => simp at h
  | case6 read c t => simp at h
  | case7 read c t hlone hpair hline hmark hclose ih =>
    obtain ⟨m, hm⟩ := ih h
    have hc : c ≠ '\\' := by
      rintro rfl
      rcases t with _ | ⟨d, t⟩
      · exact hlone rfl rfl
      · exact hpair d t rfl rfl
    have hmark' := interpolatesAt_append_blanks style hblanks (c :: t)
    have hclose' := Text.beginsWith_append_blanks hblanks (delimiter_solid hquote) (c :: t)
    rw [List.cons_append] at hmark' hclose'
    refine ⟨m, ?_⟩
    rw [List.cons_append, partFrom_cons hc, if_neg hline, hmark', if_neg hmark, hclose',
      if_neg hclose, hm]

end StringStyle

theorem quotedItem_append_blanks (hblanks : blanks.isBlankOnly = true)
    {nesting after : List Interpolation} {quote : Char} {t : Text} {n : Nat}
    (hquote : quote = '\'' ∨ quote = '"') (h : quotedItem nesting quote t = .unterminated n after) :
    ∃ m later, quotedItem nesting quote (t ++ blanks) = .unterminated m later := by
  have hsolid : List.any [quote, quote] isBlank = false := by
    rcases hquote with rfl | rfl
    · decide
    · decide
  have hstyle : StringStyle.at quote (t ++ blanks) = .at quote t := by
    rw [StringStyle.at, StringStyle.at, Text.beginsWith_append_blanks hblanks hsolid]
  have hfits : (StringStyle.at quote t).delimiter.length - 1 ≤ t.length := by
    rcases StringStyle.width_cases quote t with hwidth | ⟨hwidth, hlong⟩
    · omega
    · omega
  have hpart := (stringItem_unterminated h).1
  have hstyled : (StringStyle.at quote t).quote = '\'' ∨ (StringStyle.at quote t).quote = '"' := hquote
  obtain ⟨m, hm⟩ := StringStyle.partFrom_append_blanks hstyled hblanks hpart
  refine ⟨m, nesting, ?_⟩
  simp only [quotedItem, hstyle, List.drop_append_of_le_length hfits, hm]
  rfl

/-! ### Nothing is begun -/

theorem operatorItem_append_blanks (hblanks : blanks.isBlankOnly = true) (t : Text) :
    operatorItem (t ++ blanks) = operatorItem t := by
  have hsolid : ∀ op ∈ operators, op.toList.any isBlank = false := by decide +kernel
  have hsame : ∀ op ∈ operators,
      Text.beginsWith (t ++ blanks) op.toList = t.beginsWith op.toList := by
    intro op hop
    exact Text.beginsWith_append_blanks hblanks (hsolid op hop) t
  rw [operatorItem, operatorItem, List.find?_congr hsame]

/-- White space behind a character that begins no token does not make it one. -/
theorem plainItem_append_blanks (hblanks : blanks.isBlankOnly = true) {a : Char} {t : Text}
    (h : plainItem (a :: t) = none) : plainItem (a :: (t ++ blanks)) = none := by
  simp only [plainItem, Option.orElse_eq_orElse, Option.orElse_eq_or, Option.or_eq_none_iff] at h ⊢
  obtain ⟨hdot, hmark, hnumber, hword, hoperator⟩ := h
  have hhead : ∀ c, isBlank c = false → ((t ++ blanks).head? = some c ↔ t.head? = some c) :=
    fun c hc => Text.head?_append_blanks hblanks hc t
  refine ⟨?_, ?_, ?_, ?_, ?_⟩
  · rw [dotItem_cons] at hdot ⊢
    simpa only [hhead '.' (by decide), hhead '&' (by decide), hhead '@' (by decide)] using hdot
  · rw [markItem_cons] at hmark ⊢
    simpa only [hhead ':' (by decide)] using hmark
  · simp only [numberItem] at hnumber ⊢
    split at hnumber
    · simp at hnumber
    · rename_i hdigit
      rw [if_neg hdigit]
  · simp only [wordItem] at hword ⊢
    split at hword
    · simp at hword
    · rename_i hstarts
      rw [if_neg hstarts]
  · rw [← List.cons_append, operatorItem_append_blanks hblanks]
    exact hoperator

theorem itemAt_unexpected_append_blanks (hblanks : blanks.isBlankOnly = true)
    {nesting : List Interpolation} {t : Text} {c : Char} (h : itemAt nesting t = .unexpected c) :
    itemAt nesting (t ++ blanks) = .unexpected c := by
  obtain ⟨tail, rfl⟩ := itemAt_unexpected h
  rw [List.cons_append]
  simp only [itemAt] at h ⊢
  split_ifs at h ⊢ with hopen hclose hquote
  · rcases nesting with _ | ⟨⟨triple, depth⟩, outer⟩
    · simp [openBraceItem] at h
    · simp [openBraceItem] at h
  · rcases nesting with _ | ⟨⟨triple, _ | depth⟩, outer⟩
    · simp [closeBraceItem] at h
    · exact absurd h stringItem_ne_unexpected
    · simp [closeBraceItem] at h
  · exact absurd h stringItem_ne_unexpected
  · split at h
    · simp at h
    · rename_i hplain
      rw [plainItem_append_blanks hblanks hplain]

theorem itemAt_unterminated_append_blanks (hblanks : blanks.isBlankOnly = true)
    {nesting after : List Interpolation} {t : Text} {n : Nat}
    (h : itemAt nesting t = .unterminated n after) :
    ∃ m later, itemAt nesting (t ++ blanks) = .unterminated m later := by
  rcases t with _ | ⟨c, t⟩
  · simp [itemAt] at h
  rw [List.cons_append]
  cases itemAt_head h with
  | brace hitem _ _ => simp at hitem
  | @resumed triple outer hitem hc hnesting =>
    subst hc hnesting
    have hpart := (stringItem_unterminated hitem.symm).1
    have hdouble : (⟨'"', triple⟩ : StringStyle).quote = '\'' ∨
        (⟨'"', triple⟩ : StringStyle).quote = '"' := .inr rfl
    obtain ⟨m, hm⟩ := StringStyle.partFrom_append_blanks hdouble hblanks hpart
    refine ⟨m, outer, ?_⟩
    have hresumed : itemAt (⟨triple, 0⟩ :: outer) ('\x7d' :: (t ++ blanks)) =
        stringItem .stringEnd .stringMiddle triple outer
          ((⟨'"', triple⟩ : StringStyle).partFrom 1 (t ++ blanks)) := rfl
    rw [hresumed, hm]
    rfl
  | quoted hitem hquote =>
    have hitemAt : itemAt nesting (c :: (t ++ blanks)) = quotedItem nesting c (t ++ blanks) := by
      rcases hquote with rfl | rfl
      · rfl
      · rfl
    rw [hitemAt]
    exact quotedItem_append_blanks hblanks hquote hitem.symm
  | plain hitem _ => simp at hitem
  | unexpected hitem => simp at hitem

/-! ### Comments are not closed -/

theorem closesComment_append_blanks (hblanks : blanks.isBlankOnly = true) {body : Text}
    (h : ['*', '/'] <:+: body ++ blanks) : ['*', '/'] <:+: body := by
  have hsolid : List.any ['*', '/'] isBlank = false := by decide
  induction body with
  | nil =>
    have hstar := Text.isBlank_of_mem hblanks (h.subset List.mem_cons_self)
    exact absurd hstar (by decide)
  | cons d body ih =>
    rcases List.infix_cons_iff.mp h with hhere | hlater
    · have hmark := Text.beginsWith_append_blanks hblanks hsolid (d :: body)
      rw [Bool.eq_iff_iff, Text.beginsWith, Text.beginsWith, List.isPrefixOf_iff_prefix,
        List.isPrefixOf_iff_prefix] at hmark
      exact (hmark.mp hhere).isInfix
    · exact (ih hlater).trans (List.suffix_cons d body).isInfix

theorem OpensComment.append_blanks (hblanks : blanks.isBlankOnly = true) {t : Text}
    (h : OpensComment t) : OpensComment (t ++ blanks) := by
  obtain ⟨body, rfl, hbody⟩ := h
  refine ⟨body ++ blanks, rfl, ?_⟩
  intro hclosed
  exact hbody (closesComment_append_blanks hblanks hclosed)

/-- A comment that ends with the text takes in what is blank on its line. -/
theorem comment_append_blanks (hblanks : blanks.isBlankOnly = true) {body t : Text}
    (hbody : '\n' ∉ body) (hend : (t ++ []).AtLineEnd) (hgap : GapText [] (t ++ blanks)) :
    ∃ line rest, body ++ (t ++ blanks) = line ++ rest ∧ '\n' ∉ line ∧
      (rest ++ []).AtLineEnd ∧ GapText [] rest := by
  rcases t with _ | ⟨d, t⟩
  · refine ⟨body ++ blanks.takeWhile (· != '\n'), blanks.dropWhile (· != '\n'), ?_, ?_, ?_, ?_⟩
    · rw [List.append_assoc, List.takeWhile_append_dropWhile, List.nil_append]
    · rw [List.mem_append, not_or]
      refine ⟨hbody, ?_⟩
      intro hmem
      simpa using List.all_eq_true.mp List.all_takeWhile _ hmem
    · intro c hc
      have hfirst := List.head?_dropWhile_not (· != '\n') blanks
      rw [List.append_nil] at hc
      rw [hc] at hfirst
      simpa using hfirst
    · exact .blanks (Text.isBlankOnly_of_suffix hblanks (List.dropWhile_suffix _))
  · refine ⟨body, d :: t ++ blanks, rfl, hbody, ?_, hgap⟩
    intro c hc
    exact hend c hc

theorem GapText.append_blanks (hblanks : blanks.isBlankOnly = true) {gap : Text}
    (h : GapText [] gap) : GapText [] (gap ++ blanks) := by
  induction h with
  | none => exact .blanks hblanks
  | blank hc _ ih => exact .blank hc ih
  | @lineComment body t hbody hend _ ih =>
    obtain ⟨line, rest, hsplit, hline, hrest, hgap⟩ := comment_append_blanks hblanks hbody hend ih
    have hwhole : '/' :: '/' :: body ++ t ++ blanks = '/' :: '/' :: line ++ rest := by
      simpa using hsplit
    rw [hwhole]
    exact .lineComment hline hrest hgap
  | @blockComment body t hbody _ ih =>
    have hwhole : '/' :: '*' :: body ++ '*' :: '/' :: t ++ blanks =
        '/' :: '*' :: body ++ '*' :: '/' :: (t ++ blanks) := by simp
    rw [hwhole]
    exact .blockComment hbody ih

theorem IsGap.append_blanks (hblanks : blanks.isBlankOnly = true) {first : Bool} {gap : Text}
    (h : IsGap first [] gap) : IsGap first [] (gap ++ blanks) := by
  cases h with
  | plain h => exact .plain (h.append_blanks hblanks)
  | @hashBang body t hfirst hbody hend h =>
    obtain ⟨line, rest, hsplit, hline, hrest, hgap⟩ :=
      comment_append_blanks hblanks hbody hend (h.append_blanks hblanks)
    have hwhole : '#' :: '!' :: body ++ t ++ blanks = '#' :: '!' :: line ++ rest := by
      simpa using hsplit
    rw [hwhole]
    exact .hashBang hfirst hline hrest hgap

/-! ### The same failure -/

namespace Lexer

theorem FailsAt.append_blanks (hblanks : blanks.isBlankOnly = true) {nesting : List Interpolation}
    {rest : Text} {fault : LexFault} (h : FailsAt nesting rest fault) :
    FailsAt nesting (rest ++ blanks) fault := by
  cases h with
  | comment hcomment => exact .comment (hcomment.append_blanks hblanks)
  | string hitem =>
    obtain ⟨m, later, hlater⟩ := itemAt_unterminated_append_blanks hblanks hitem
    exact .string hlater
  | char hitem => exact .char (itemAt_unexpected_append_blanks hblanks hitem)

/-- **A failure stays where it is** with white space behind the text. -/
theorem Fails.append_blanks (hblanks : blanks.isBlankOnly = true) {l : Lexer} {gap rest : Text}
    {fault : LexFault} (h : l.Fails gap rest fault) :
    (l.extend blanks).Fails gap (rest ++ blanks) fault where
  rest := by simp only [Lexer.extend, h.rest, List.append_assoc]
  isGap := by
    apply h.isGap.congr
    obtain ⟨c, tail, hrest⟩ := List.exists_cons_of_ne_nil h.failsAt.ne_nil
    rw [hrest]
    rfl
  unmarked := by
    intro hstart hnone
    rw [Text.beginsWith_append_blanks hblanks (by decide)]
    exact h.unmarked hstart hnone
  ends := by
    intro hfault hbegins
    apply h.ends hfault
    have hglance : blanks.glance <+: Text.glance [] := by
      rw [← Text.glance_append_blanks hblanks [], List.nil_append]
    have hshort := hbegins.of_glance hglance h.failsAt.ne_nil
    rwa [List.append_nil] at hshort
  failsAt := h.failsAt.append_blanks hblanks

theorem next_error_append_blanks (hblanks : blanks.isBlankOnly = true) {l after : Lexer}
    {e : LexError} (h : l.next = (.error e, after)) :
    ∃ later, (l.extend blanks).next = (.error e, later) := by
  obtain ⟨gap, rest, hfails, he⟩ := fails_of_next h
  rw [he]
  exact (hfails.append_blanks hblanks).next

/-- **White space behind a text changes no token and no failure**, and leaves the same
    interpolations open. -/
theorem run_extend_blanks (hblanks : blanks.isBlankOnly = true) (l : Lexer) :
    (l.extend blanks).run.tokens = l.run.tokens ∧
      (∀ e, l.run.ending = .error e → (l.extend blanks).run.ending = .error e) ∧
      ∀ eof, l.run.ending = .ok eof → (∃ eof, (l.extend blanks).run.ending = .ok eof) ∧
        (l.extend blanks).run.lexer.nesting = l.run.lexer.nesting := by
  fun_induction run l with
  | case1 l e after hnext =>
    obtain ⟨later, hlater⟩ := next_error_append_blanks hblanks hnext
    rw [run_error hlater]
    refine ⟨rfl, ?_, ?_⟩
    · intro f hf
      exact hf
    · intro eof heof
      simp at heof
  | case2 l eof after hnext atEnd =>
    obtain ⟨gap, hreads⟩ := reads_of_next hnext
    obtain ⟨hrest, hgap, hnesting⟩ := hreads.atEnd atEnd
    have hlonger : IsGap ((l.extend blanks).offset == 0) [] (l.extend blanks).rest := by
      simp only [extend, hrest]
      exact hgap.append_blanks hblanks
    obtain ⟨htokens, hending, hopen⟩ := run_gap hlonger
    refine ⟨htokens, ?_, ?_⟩
    · intro e he
      simp at he
    · intro _ _
      exact ⟨hending, hopen.trans hnesting.symm⟩
  | case3 l token after hnext inside scan ih =>
    obtain ⟨gap, hreads⟩ := reads_of_next hnext
    have hglance := Text.glance_append_blanks hblanks after.rest
    obtain ⟨htokens, hfails, hends⟩ := ih
    rw [run_token (hreads.extend inside hglance).next inside]
    exact ⟨by rw [htokens], hfails, hends⟩

end Lexer

/-! ### The verdict -/

theorem LexError.canContinue_append_blanks (hblanks : blanks.isBlankOnly = true) (source : Text)
    (e : LexError) : e.canContinue (source ++ blanks) = e.canContinue source := by
  have hsingle : List.any ['\'', '\'', '\''] isBlank = false := by decide
  have hdouble : List.any ['"', '"', '"'] isBlank = false := by decide
  unfold canContinue
  split
  · rfl
  · rename_i p _ _
    obtain ⟨later, hlater, hstart⟩ := Text.startingAt_append_blanks hblanks p source
    simp only [hstart, Text.beginsWith_append_blanks hlater hsingle,
      Text.beginsWith_append_blanks hlater hdouble]
  · rfl

theorem completeness_append_blanks (hblanks : blanks.isBlankOnly = true) (source : Text) :
    completeness (source ++ blanks) = completeness source := by
  have hblank : (source ++ blanks).isBlankOnly = source.isBlankOnly := by
    rw [Text.isBlankOnly_append, hblanks, Bool.and_true]
  obtain ⟨htokens, hfails, hends⟩ := Lexer.run_extend_blanks hblanks (.new source)
  have hlonger : (Lexer.new source).extend blanks = .new (source ++ blanks) := rfl
  rw [hlonger] at htokens hfails hends
  unfold completeness lexAll
  rw [hblank]
  cases hending : (Lexer.new source).run.ending with
  | error e => simp only [hending, hfails e hending, LexError.canContinue_append_blanks hblanks]
  | ok eof =>
    obtain ⟨⟨later, hlater⟩, hnesting⟩ := hends eof hending
    simp only [hending, hlater, htokens, hnesting]

theorem role_blank (hblanks : blanks.isBlankOnly = true) {r : Repl} (hkept : r.session.buffer ≠ []) :
    r.role blanks = .groovy := by
  have hkept' : r.session.buffer.isEmpty = false := by simpa [List.isEmpty_iff] using hkept
  have hcolon : isCommandLine blanks = false := by
    have hnone : blanks.trimStart = [] := by
      rw [Text.trimStart, List.dropWhile_eq_nil_iff]
      intro c hc
      exact Text.isBlank_of_mem hblanks hc
    rw [isCommandLine, hnone]
    rfl
  simp [Repl.role, Repl.isCommand, hkept', hcolon]

/-- A blank line behind lines that are not finished finishes nothing. -/
theorem Unfinished.statementWith_blank (hblanks : blanks.isBlankOnly = true) {s : Session}
    (h : Unfinished s.buffer) (hkept : s.buffer ≠ []) :
    completeness (s.statementWith blanks) = .incomplete := by
  have hsplit : s.statementWith blanks = Text.joined ['\n'] s.buffer ++ '\n' :: blanks := by
    obtain ⟨front, last, hlines⟩ := (List.eq_nil_or_concat s.buffer).resolve_left hkept
    rw [List.concat_eq_append] at hlines
    rw [Session.statementWith, hlines, Text.below_append, ← Text.below_eq_joined]
    simp [Text.below]
  have hnewline : Text.isBlankOnly ('\n' :: blanks) = true := by
    simp only [Text.isBlankOnly, List.all_cons, Bool.and_eq_true]
    exact ⟨by decide, hblanks⟩
  rw [hsplit, completeness_append_blanks hnewline]
  exact h.prefix_incomplete (List.prefix_refl _) hkept

end

/-- **White space at the end never changes whether a statement is finished.**  So a
    blank line, typed while a statement is unfinished, is kept with its lines. -/
theorem blank_ending_kept :
    (∀ source blanks : Text, blanks.isBlankOnly = true →
        completeness (source ++ blanks) = completeness source) ∧
      ∀ (completion : CompletionSettings) (color : Bool) (inputs : List Text) (line : Text),
        let r := (Repl.opened completion color).after inputs
        r.session.buffer ≠ [] → line.isBlankOnly = true →
          r.process line = ({ r with session := r.session.pushLine line }, .ok .buffered) := by
  constructor
  · intro source blanks hblanks
    exact completeness_append_blanks hblanks source
  · intro completion color inputs line r hkept hblank
    obtain ⟨-, hunfinished⟩ := Repl.after_keeps completion color inputs
    apply Repl.process_incomplete (role_blank hblank hkept)
    exact hunfinished.statementWith_blank hblank hkept

/-- A string that stops behind a backslash, which takes the newline with it, and a
    blank line in the middle of a list. -/
theorem blank_ending_kept_backslash :
    completeness ("x = '''a\\".toList ++ "\n ".toList) = .incomplete ∧
      completeness ("x = 'a\\".toList ++ "\n ".toList) = .complete ∧
      (((Repl.opened .default false).after ["x = [".toList]).process " ".toList).2 =
        .ok .buffered := by
  obtain ⟨hsource, hline⟩ := blank_ending_kept
  refine ⟨?_, ?_, ?_⟩
  · rw [hsource _ _ (by decide)]
    decide +kernel
  · rw [hsource _ _ (by decide)]
    decide +kernel
  · rw [hline .default false ["x = [".toList] " ".toList (by decide +kernel) (by decide)]

end GroovyShell
