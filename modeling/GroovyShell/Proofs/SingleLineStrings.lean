/-
  GroovyShell/Proofs/SingleLineStrings.lean
  =========================================
  **Strings between single quotes and the end of their line.**

  A string that one quote character delimits is to end on its line.  What stays in
  it is described without the lexer (`StaysInLine`), and reading a part of such a
  string is taking all that stays in it up to what ends the part (`partFrom_line`).
  So the end of the line is always met, and gives the string up, with one
  exception: behind a backslash it is taken along like any other character, and
  the string goes on below.
-/
import GroovyShell.Proofs.RepeatedReadings
import GroovyShell.Proofs.Spelling

namespace GroovyShell

/-! ### What stays in a string -/

/-- A text without its backslashes and the characters they take along. -/
def Text.unescaped : Text → Text
  | [] => []
  | ['\\'] => []
  | '\\' :: _ :: t => unescaped t
  | c :: t => c :: unescaped t

/-- `StaysInLine quote body`: in a string that one `quote` delimits, nothing in `body`
    closes the string, leaves it at `${` or ends its line, but for what a backslash
    takes along. -/
inductive StaysInLine (quote : Char) : Text → Prop
  | nothing : StaysInLine quote []
  | escaped {c : Char} {t : Text} : StaysInLine quote t → StaysInLine quote ('\\' :: c :: t)
  | plain {c : Char} {t : Text} :
      c ≠ '\\' → c ≠ '\n' → c ≠ quote → ¬ (quote = '"' ∧ c = '$' ∧ t.head? = some '\x7b') →
        StaysInLine quote t → StaysInLine quote (c :: t)

/-- What ends the part of such a string, `read` characters having been read before it:
    the quote, the mark `${`, the end of the line or the end of the text. -/
inductive EndsPart (quote : Char) (read : Nat) : Text → StringPart → Prop
  | closed {t : Text} : EndsPart quote read (quote :: t) (.closed (read + 1))
  | interpolated {t : Text} :
      quote = '"' → EndsPart quote read ('$' :: '\x7b' :: t) (.interpolated (read + 2))
  | line {t : Text} : EndsPart quote read ('\n' :: t) (.unterminated read)
  | nothing : EndsPart quote read [] (.unterminated read)
  | backslash : EndsPart quote read ['\\'] (.unterminated (read + 1))

theorem Text.unescaped_cons {c : Char} (hc : c ≠ '\\') (t : Text) :
    unescaped (c :: t) = c :: unescaped t := by
  rw [unescaped]
  · rintro rfl
    exact absurd rfl hc
  · rintro d u rfl
    exact absurd rfl hc

theorem Text.unescaped_of_solid {t : Text} (h : ∀ c ∈ t, c ≠ '\\') : t.unescaped = t := by
  induction t with
  | nil => rfl
  | cons c t ih =>
    rw [unescaped_cons (h c List.mem_cons_self), ih]
    intro d hd
    exact h d (List.mem_cons_of_mem c hd)

namespace StaysInLine

variable {quote : Char} {body : Text}

theorem unescaped_append (h : StaysInLine quote body) (t : Text) :
    (body ++ t).unescaped = body.unescaped ++ t.unescaped := by
  induction h with
  | nothing => rfl
  | escaped _ ih => exact ih
  | plain hc _ _ _ _ ih =>
    rw [List.cons_append, Text.unescaped_cons hc, ih, Text.unescaped_cons hc, List.cons_append]

theorem newline_not_mem (h : StaysInLine quote body) : '\n' ∉ body.unescaped := by
  induction h with
  | nothing => simp [Text.unescaped]
  | escaped _ ih => exact ih
  | plain hc hline _ _ _ ih =>
    rw [Text.unescaped_cons hc, List.mem_cons, not_or]
    exact ⟨hline.symm, ih⟩

/-- All that stays in the string is read on. -/
theorem partFrom (h : StaysInLine quote body) (read : Nat) {stop : Text}
    (hstop : stop.head? ≠ some '\x7b') :
    (⟨quote, false⟩ : StringStyle).partFrom read (body ++ stop) =
      (⟨quote, false⟩ : StringStyle).partFrom (read + body.length) stop := by
  induction h generalizing read with
  | nothing => rfl
  | @escaped c t _ ih =>
    rw [List.cons_append, List.cons_append, StringStyle.partFrom, ih]
    congr 1
    simp only [List.length_cons]
    omega
  | @plain c t hc hline hquote hmark _ ih =>
    have hopen : (⟨quote, false⟩ : StringStyle).interpolatesAt (c :: (t ++ stop)) = false := by
      by_contra hbegins
      simp only [StringStyle.interpolatesAt, Bool.not_eq_false, Bool.and_eq_true, beq_iff_eq]
        at hbegins
      obtain ⟨rest, hrest⟩ := Text.beginsWith_iff.mp hbegins.2
      simp only [List.cons_append, List.nil_append, List.cons.injEq] at hrest
      obtain ⟨rfl, hrest⟩ := hrest
      cases t with
      | nil => exact hstop (by rw [← List.nil_append stop, hrest, List.head?_cons])
      | cons d t =>
        rw [List.cons_append, List.cons.injEq] at hrest
        exact hmark ⟨hbegins.1, rfl, by rw [hrest.1, List.head?_cons]⟩
    have hclose : Text.beginsWith (c :: (t ++ stop)) (StringStyle.delimiter ⟨quote, false⟩) =
        false := by
      by_contra hbegins
      exact hquote (StringStyle.head_delimiter (by simpa using hbegins))
    rw [List.cons_append, StringStyle.partFrom_cons hc, if_neg (by simp [hline]), hopen, hclose,
      if_neg (by simp), if_neg (by simp), ih]
    congr 1
    simp only [List.length_cons]
    omega

end StaysInLine

/-! ### One part of a string -/

section

variable {quote : Char}

/-- **A part of a single-line string.**  What is read is what stays in the string,
    up to what ends the part. -/
theorem partFrom_line (quote : Char) (read : Nat) (t : Text) :
    ∃ body stop, t = body ++ stop ∧ StaysInLine quote body ∧
      EndsPart quote (read + body.length) stop
        ((⟨quote, false⟩ : StringStyle).partFrom read t) := by
  generalize hstyle : (⟨quote, false⟩ : StringStyle) = style
  fun_induction StringStyle.partFrom style read t with
  | case1 read => exact ⟨[], [], rfl, .nothing, .nothing⟩
  | case2 read => exact ⟨[], ['\\'], rfl, .nothing, .backslash⟩
  | case3 read c t ih =>
    obtain ⟨body, stop, rfl, hbody, hends⟩ := ih
    refine ⟨'\\' :: c :: body, stop, rfl, .escaped hbody, ?_⟩
    have hlength : read + ('\\' :: c :: body).length = read + 2 + body.length := by
      simp only [List.length_cons]
      omega
    rw [hlength]
    exact hends
  | case4 read c t _ _ hline =>
    obtain ⟨rfl, -⟩ := hline
    exact ⟨[], _, rfl, .nothing, .line⟩
  | case5 read c t _ _ _ hmark =>
    subst hstyle
    simp only [StringStyle.interpolatesAt, Bool.and_eq_true, beq_iff_eq] at hmark
    obtain ⟨rest, hrest⟩ := Text.beginsWith_iff.mp hmark.2
    rw [hrest]
    exact ⟨[], _, rfl, .nothing, .interpolated hmark.1⟩
  | case6 read c t _ _ _ _ hclose =>
    subst hstyle
    obtain rfl := StringStyle.head_delimiter hclose
    exact ⟨[], _, rfl, .nothing, .closed⟩
  | case7 read c t hlast hescape hline hmark hclose ih =>
    subst hstyle
    obtain ⟨body, stop, rfl, hbody, hends⟩ := ih
    have hslash : c ≠ '\\' := by
      rintro rfl
      cases hrest : body ++ stop with
      | nil => exact hlast rfl hrest
      | cons d rest => exact hescape d rest rfl hrest
    have hbreak : c ≠ '\n' := by simpa using hline
    have hquote : c ≠ quote := by
      rintro rfl
      simp [StringStyle.delimiter, Text.beginsWith] at hclose
    refine ⟨c :: body, stop, rfl, .plain hslash hbreak hquote ?_ hbody, ?_⟩
    · rintro ⟨rfl, rfl, hhead⟩
      obtain ⟨rest, rfl⟩ := List.head?_eq_some_iff.mp hhead
      simp [StringStyle.interpolatesAt, Text.beginsWith] at hmark
    · have hlength : read + (c :: body).length = read + 1 + body.length := by
        simp only [List.length_cons]
        omega
      rw [hlength]
      exact hends

/-- A part that is ended, and not given up, is ended by a mark that is read with it. -/
theorem EndsPart.mark {read : Nat} {stop : Text} {part : StringPart}
    (h : EndsPart quote read stop part) (hquote : quote ≠ '\\' ∧ quote ≠ '\n')
    (hended : part.isEnded = true) :
    ∃ mark rest, stop = mark ++ rest ∧ part.length = read + mark.length ∧
      ∀ d ∈ mark, d ≠ '\\' ∧ d ≠ '\n' := by
  cases h with
  | @closed t =>
    refine ⟨[quote], t, rfl, rfl, ?_⟩
    intro d hd
    rw [List.mem_singleton.mp hd]
    exact hquote
  | @interpolated t _ => exact ⟨['$', '\x7b'], t, rfl, rfl, by simp⟩
  | line => simp [StringPart.isEnded] at hended
  | nothing => simp [StringPart.isEnded] at hended
  | backslash => simp [StringPart.isEnded] at hended

/-- The end of a line is the end of every part that stays in the string so far. -/
theorem partFrom_unterminated_iff (quote : Char) (read : Nat) (t : Text) :
    (∃ n, (⟨quote, false⟩ : StringStyle).partFrom read t = .unterminated n) ↔
      ∃ body stop, t = body ++ stop ∧ StaysInLine quote body ∧
        (stop = [] ∨ stop = ['\\'] ∨ stop.head? = some '\n') := by
  constructor
  · rintro ⟨n, hn⟩
    obtain ⟨body, stop, rfl, hbody, hends⟩ := partFrom_line quote read t
    refine ⟨body, stop, rfl, hbody, ?_⟩
    rw [hn] at hends
    cases hends with
    | line => exact .inr (.inr rfl)
    | nothing => exact .inl rfl
    | backslash => exact .inr (.inl rfl)
  · rintro ⟨body, stop, rfl, hbody, rfl | rfl | hline⟩
    · rw [hbody.partFrom read (by simp)]
      exact ⟨_, rfl⟩
    · rw [hbody.partFrom read (by simp)]
      exact ⟨_, rfl⟩
    · rw [hbody.partFrom read (by simp [hline])]
      obtain ⟨rest, rfl⟩ := List.head?_eq_some_iff.mp hline
      rw [StringStyle.partFrom_cons (by decide), if_pos (by simp)]
      exact ⟨_, rfl⟩

end

/-! ### Single-line strings in a text -/

/-- Whether a token is, or is a part of, a string that one quote character delimits.
    What begins a string shows its quotes; what goes on with one is a part of the
    string around the innermost interpolation. -/
def Token.isSingleLine (token : Token) (nesting : List Interpolation) : Bool :=
  match token.kind, nesting with
  | .string, _ | .stringStart, _ =>
    !(token.text.beginsWith ['\'', '\'', '\''] || token.text.beginsWith ['"', '"', '"'])
  | .stringMiddle, innermost :: _ | .stringEnd, innermost :: _ => !innermost.triple
  | _, _ => false

theorem Token.isSingleLine_first {token : Token} {nesting : List Interpolation}
    (h : token.kind = .string ∨ token.kind = .stringStart) :
    token.isSingleLine nesting =
      !(token.text.beginsWith ['\'', '\'', '\''] || token.text.beginsWith ['"', '"', '"']) := by
  rcases h with h | h
  · simp [isSingleLine, h]
  · simp [isSingleLine, h]

theorem Token.isSingleLine_later {token : Token} {innermost : Interpolation}
    {outer : List Interpolation} (h : token.kind = .stringEnd ∨ token.kind = .stringMiddle) :
    token.isSingleLine (innermost :: outer) = !innermost.triple := by
  rcases h with h | h
  · simp [isSingleLine, h]
  · simp [isSingleLine, h]

theorem Token.isSingleLine_plain {token : Token} {nesting : List Interpolation}
    (h : token.kind.isPlain = true) : token.isSingleLine nesting = false := by
  unfold isSingleLine
  split <;> simp_all [TokenKind.isPlain]

/-- A string that begins with three quotes shows them in its first token. -/
theorem quotedItem_shows_quotes {nesting after : List Interpolation} {quote : Char}
    {tail rest : Text} {kind : TokenKind}
    (h : quotedItem nesting quote (tail ++ rest) = .token kind (quote :: tail).length after)
    (htriple : Text.beginsWith (tail ++ rest) [quote, quote] = true) :
    Text.beginsWith (quote :: tail) [quote, quote, quote] = true := by
  obtain ⟨hended, hlength⟩ := stringItem_part h
  have hreaches := (StringStyle.partFrom_reaches _ _ hended).1
  have hwidth : (StringStyle.at quote (tail ++ rest)).delimiter.length = 3 := by
    rw [StringStyle.delimiter_length, StringStyle.at, if_pos (by simpa using htriple)]
  rw [hlength, hwidth, List.length_cons] at hreaches
  have hcovers : [quote, quote].length ≤ tail.length := by
    simp only [List.length_cons, List.length_nil]
    omega
  rw [← Text.beginsWith_take hcovers, List.take_left] at htriple
  simpa [Text.beginsWith] using htriple

/-- A part of a single-line string is read where that string begins or is resumed. -/
theorem Lexer.Reads.singleLine {l after : Lexer} {gap : Text} {token : Token}
    (h : l.Reads gap token after) (hsingle : token.isSingleLine l.nesting = true) :
    ∃ c tail resumed, token.text = c :: tail ∧
      StringAhead l.nesting (c :: (tail ++ after.rest)) false resumed := by
  have inside : token.kind ≠ .endOfInput := by
    intro hend
    simp [Token.isSingleLine, hend] at hsingle
  obtain ⟨c, tail, htext⟩ := List.exists_cons_of_ne_nil (h.text_ne_nil inside)
  have hitem := h.item
  rw [htext, List.cons_append] at hitem
  cases itemAt_head hitem with
  | brace hbrace hkind _ =>
    simp only [Item.token.injEq] at hbrace
    rw [← hbrace.1] at hkind
    rcases hkind with hkind | hkind
    · simp [Token.isSingleLine, hkind] at hsingle
    · simp [Token.isSingleLine, hkind] at hsingle
  | @resumed triple outer hpart hc hnesting =>
    subst hc
    have hlater : token.kind = .stringEnd ∨ token.kind = .stringMiddle :=
      (stringItem_token hpart.symm).imp And.left And.left
    have hone : triple = false := by
      rw [hnesting, Token.isSingleLine_later hlater] at hsingle
      simpa using hsingle
    rw [hone] at hnesting
    exact ⟨_, tail, true, htext, .resumed hnesting⟩
  | quoted hpart hquote =>
    have hahead : StringAhead l.nesting (c :: (tail ++ after.rest))
        (Text.beginsWith (tail ++ after.rest) [c, c]) false := .opened hquote
    have hone : Text.beginsWith (tail ++ after.rest) [c, c] = false := by
      by_contra htriple
      have hshown := quotedItem_shows_quotes hpart.symm (by simpa using htriple)
      have hfirst : token.kind = .string ∨ token.kind = .stringStart :=
        (stringItem_token hpart.symm).imp And.left And.left
      rw [Token.isSingleLine_first hfirst, htext] at hsingle
      rcases hquote with rfl | rfl
      · simp [hshown] at hsingle
      · simp [hshown] at hsingle
    rw [hone] at hahead
    exact ⟨c, tail, false, htext, hahead⟩
  | plain hplain hkind =>
    simp only [Item.token.injEq] at hplain
    rw [← hplain.1] at hkind
    rw [Token.isSingleLine_plain (plainItem_isPlain hkind)] at hsingle
    simp at hsingle
  | unexpected hnone => simp at hnone

/-! ### Reading a single-line string -/

section

variable {nesting : List Interpolation} {c : Char} {t : Text} {triple resumed : Bool}

theorem StringAhead.head (h : StringAhead nesting (c :: t) triple resumed) :
    c = '\'' ∨ c = '"' ∨ c = '\x7d' := by
  cases h with
  | opened hquote => exact hquote.imp_right .inl
  | resumed _ => exact .inr (.inr rfl)

/-- What stands at the head is a part of a string that its quote, or the quote of the
    string resumed, delimits. -/
theorem StringAhead.itemAt_eq (h : StringAhead nesting (c :: t) triple resumed)
    (hone : triple = false) :
    ∃ whole cut outer, itemAt nesting (c :: t) = stringItem whole cut false outer
      ((⟨if resumed then '"' else c, false⟩ : StringStyle).partFrom 1 t) := by
  cases h with
  | opened hquote =>
    refine ⟨.string, .stringStart, nesting, ?_⟩
    have hitem : itemAt nesting (c :: t) = quotedItem nesting c t := by
      rcases hquote with rfl | rfl
      · rfl
      · rfl
    rw [hitem, quotedItem, StringStyle.at, hone]
    rfl
  | @resumed _ outer _ hnesting =>
    rw [hnesting, hone]
    exact ⟨.stringEnd, .stringMiddle, outer, rfl⟩

/-- The string that stands behind a gap is what is read. -/
theorem Lexer.next_string {l : Lexer} {gap : Text} (hrest : l.rest = gap ++ c :: t)
    (hgap : IsGap (l.offset == 0) (c :: t) gap)
    (h : StringAhead l.nesting (c :: t) triple resumed) :
    l.next = (l.skip gap.length).readItem := by
  have hsolid : c ≠ '/' ∧ c ≠ '#' ∧ isBlank c = false := by
    rcases h.head with rfl | rfl | rfl
    · decide
    · decide
    · decide
  obtain ⟨hslash, hhash, hblank⟩ := hsolid
  apply next_behind hrest hgap
  · exact not_beginsGap_of_ne hslash hblank t
  · intro _ _
    simp [Text.beginsWith, List.isPrefixOf, hhash.symm]

/-- A single-line string is given up where it stands exactly if its part does not end. -/
theorem Lexer.next_unterminated_iff {l : Lexer} {gap : Text} (hrest : l.rest = gap ++ c :: t)
    (hgap : IsGap (l.offset == 0) (c :: t) gap)
    (h : StringAhead l.nesting (c :: t) false resumed) :
    l.next.1 = .error (.at .unterminatedString (l.position.after gap)) ↔
      ∃ n, (⟨if resumed then '"' else c, false⟩ : StringStyle).partFrom 1 t = .unterminated n := by
  obtain ⟨whole, cut, outer, hitem⟩ := h.itemAt_eq rfl
  have hhere : (l.skip gap.length).rest = c :: t := by simp [skip, hrest]
  have hplace : (l.skip gap.length).position = l.position.after gap := by simp [skip, hrest]
  have hnesting : (l.skip gap.length).nesting = l.nesting := rfl
  rw [next_string hrest hgap h, readItem, hhere, hnesting, hitem, hplace]
  cases hpart : (⟨if resumed then '"' else c, false⟩ : StringStyle).partFrom 1 t with
  | closed n => simp [stringItem]
  | interpolated n => simp [stringItem]
  | unterminated n => simp [stringItem]

/-- No line ends in a part of a single-line string, but behind a backslash. -/
theorem Lexer.Reads.newline_not_mem {l after : Lexer} {gap : Text} {token : Token}
    (h : l.Reads gap token after) (hsingle : token.isSingleLine l.nesting = true) :
    '\n' ∉ token.text.unescaped := by
  obtain ⟨c, tail, resumed, htext, hahead⟩ := h.singleLine hsingle
  obtain ⟨whole, cut, outer, hpart⟩ := hahead.itemAt_eq rfl
  have hitem := h.item
  rw [htext, List.cons_append, hpart] at hitem
  obtain ⟨hended, hlength⟩ := stringItem_part hitem
  have hsolid : c ≠ '\\' ∧ c ≠ '\n' := by
    rcases hahead.head with rfl | rfl | rfl
    · decide
    · decide
    · decide
  have hquote : (if resumed then '"' else c) ≠ '\\' ∧ (if resumed then '"' else c) ≠ '\n' := by
    split
    · decide
    · exact hsolid
  obtain ⟨body, stop, hsplit, hbody, hends⟩ :=
    partFrom_line (if resumed then '"' else c) 1 (tail ++ after.rest)
  obtain ⟨mark, rest, rfl, hmeasure, hmark⟩ := hends.mark hquote hended
  -- the part is as long as the token, so the token is the body with the mark that ends it
  have htail : tail = body ++ mark := by
    rw [← List.append_assoc] at hsplit
    apply (List.append_inj hsplit _).1
    rw [List.length_cons] at hlength
    rw [List.length_append]
    omega
  rw [htext, Text.unescaped_cons hsolid.1, htail, hbody.unescaped_append,
    Text.unescaped_of_solid fun d hd => (hmark d hd).1]
  simp only [List.mem_cons, List.mem_append, not_or]
  refine ⟨hsolid.2.symm, hbody.newline_not_mem, ?_⟩
  intro hmem
  exact (hmark _ hmem).2 rfl

end

/-! ### What is remembered of open strings -/

/-- A string that is given up takes at most the interpolation with it behind which it
    was resumed. -/
theorem itemAt_unterminated_nesting {nesting after : List Interpolation} {t : Text} {n : Nat}
    (h : itemAt nesting t = .unterminated n after) : after = nesting ∨ after = nesting.tail := by
  rcases t with _ | ⟨c, t⟩
  · simp [itemAt] at h
  cases itemAt_head h with
  | brace hitem _ _ => simp at hitem
  | resumed hitem _ hnesting =>
    right
    rw [(stringItem_unterminated hitem.symm).2, hnesting, List.tail_cons]
  | quoted hitem _ => exact .inl (stringItem_unterminated hitem.symm).2
  | plain hitem _ => simp at hitem
  | unexpected hitem => simp at hitem

namespace Lexer

/-- What a token opens and closes is what it shows. -/
theorem nesting_of_token {l : Lexer} {token : Token} (h : l.next.1 = .ok token) :
    l.next.2.nesting = token.nestingAfter l.nesting := by
  obtain ⟨gap, hreads⟩ := reads_of_next (Prod.ext h rfl : l.next = (.ok token, l.next.2))
  have hnesting := itemAt_nesting token.position hreads.item
  rwa [List.take_left] at hnesting

/-- A failure opens nothing. -/
theorem nesting_of_error {l : Lexer} {e : LexError} (h : l.next.1 = .error e) :
    l.next.2.nesting = l.nesting ∨ l.next.2.nesting = l.nesting.tail := by
  unfold next at h ⊢
  split at h
  · exact .inl rfl
  · simp only at h ⊢
    split at h
    · simp at h
    · rename_i hitem
      exact itemAt_unterminated_nesting hitem
    · exact .inl rfl

end Lexer

/-- **Single-line strings and the end of the line.**  However often a lexer is asked,
    a token of a string that one quote character delimits has no end of a line but
    behind a backslash that takes it along.  Where such a string begins or is
    resumed it is given up, as a string without an end, exactly if the end of the
    line or of the text is met by what stays in the string.  Which strings are
    meant is told by the tokens: a failure only forgets. -/
theorem single_line_strings (source : Text) (k : Nat) :
    let start := Lexer.new source
    let l := start.afterReadings k
    (∀ token, start.reading k = .ok token → token.isSingleLine l.nesting = true →
        '\n' ∉ token.text.unescaped) ∧
      (∀ gap c t resumed, l.rest = gap ++ c :: t → IsGap (l.offset == 0) (c :: t) gap →
        StringAhead l.nesting (c :: t) false resumed →
          (start.reading k = .error (.at .unterminatedString (l.position.after gap)) ↔
            ∃ body stop, t = body ++ stop ∧ StaysInLine (if resumed then '"' else c) body ∧
              (stop = [] ∨ stop = ['\\'] ∨ stop.head? = some '\n'))) ∧
      (∀ token, start.reading k = .ok token →
        (start.afterReadings (k + 1)).nesting = token.nestingAfter l.nesting) ∧
      ∀ e, start.reading k = .error e →
        (start.afterReadings (k + 1)).nesting = l.nesting ∨
          (start.afterReadings (k + 1)).nesting = l.nesting.tail := by
  intro start l
  have hafter : start.afterReadings (k + 1) = l.next.2 := start.afterReadings_succ k
  rw [hafter]
  refine ⟨?_, ?_, ?_, ?_⟩
  · intro token htoken hsingle
    obtain ⟨gap, hreads⟩ :=
      Lexer.reads_of_next (Prod.ext htoken rfl : l.next = (.ok token, l.next.2))
    exact hreads.newline_not_mem hsingle
  · intro gap c t resumed hrest hgap hahead
    rw [← partFrom_unterminated_iff _ 1 t]
    exact Lexer.next_unterminated_iff hrest hgap hahead
  · intro token htoken
    exact Lexer.nesting_of_token htoken
  · intro e herror
    exact Lexer.nesting_of_error herror

/-- A line ends inside a string, in the first text behind a backslash. -/
theorem single_line_strings_broken :
    let escaped : Text := "x = 'a\\\nb'".toList
    let broken : Text := "x = 'a\nb'".toList
    (∃ token, (Lexer.new escaped).reading 2 = .ok token ∧ '\n' ∈ token.text ∧
        '\n' ∉ token.text.unescaped) ∧
      (Lexer.new broken).reading 2 = .error (.at .unterminatedString ⟨1, 5⟩) := by
  intro escaped broken
  constructor
  · have htoken : (Lexer.new escaped).reading 2 =
        .ok ⟨.string, "'a\\\nb'".toList, ⟨1, 5⟩⟩ := by decide +kernel
    refine ⟨_, htoken, by decide, ?_⟩
    exact (single_line_strings escaped 2).1 _ htoken (by decide +kernel)
  · have hrest : ((Lexer.new broken).afterReadings 2).rest = [' '] ++ '\'' :: "a\nb'".toList := by
      decide +kernel
    have hgap : IsGap (((Lexer.new broken).afterReadings 2).offset == 0) ('\'' :: "a\nb'".toList)
        [' '] := .plain (.blank (by decide) .none)
    have hahead : StringAhead ((Lexer.new broken).afterReadings 2).nesting
        ('\'' :: "a\nb'".toList) false false := .opened (.inl rfl)
    have hiff := (single_line_strings broken 2).2.1 _ _ _ _ hrest hgap hahead
    have hplace : ((Lexer.new broken).afterReadings 2).position.after [' '] = ⟨1, 5⟩ := by
      decide +kernel
    rw [hplace] at hiff
    apply hiff.mpr
    refine ⟨['a'], "\nb'".toList, rfl, ?_, .inr (.inr rfl)⟩
    exact .plain (by decide) (by decide) (by decide) (by decide) .nothing

end GroovyShell
