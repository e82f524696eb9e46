/-
  GroovyShell/Proofs/ItemEnds.lean
  ================================
  **Where an item ends.**

  An item is a token of the length that the head of the text decides.  Here it
  is shown that this length never exceeds the text (`itemAt_le`) and that what
  follows the token counts only as far as a glance at it goes: with another text
  behind it, of which no more is seen, the same token stands there
  (`itemAt_of_glance`).  A string ends with its own mark, so nothing behind it
  counts, but for the third of three quotes.
-/
import GroovyShell.Proofs.Lookahead

namespace GroovyShell

/-! ### Marks -/

theorem dotItem_cons (a : Char) (t : Text) :
    dotItem (a :: t) =
      if a = '.' then
        if t.head? = some '.' ∨ t.head? = some '&' ∨ t.head? = some '@' then none
        else some (.dot .plain, 1)
      else if a = '?' ∧ t.head? = some '.' then some (.dot .safe, 2)
      else if a = '*' ∧ t.head? = some '.' then some (.dot .spread, 2)
      else none := by
  rcases t with _ | ⟨b, t⟩
  · unfold dotItem
    split <;> simp_all
  · by_cases ha : a = '.'
    · subst ha
      by_cases hdot : b = '.'
      · simp [dotItem, hdot]
      · by_cases hand : b = '&'
        · simp [dotItem, hand]
        · by_cases hat : b = '@' <;> simp [dotItem, hdot, hand, hat]
    · unfold dotItem
      split <;> simp_all
      rename_i hsafe hspread
      rw [if_neg (fun h => hsafe h.1 h.2), if_neg (fun h => hspread h.1 h.2)]

theorem markItem_cons (a : Char) (t : Text) :
    markItem (a :: t) = if a = ':' ∧ t.head? = some ':' then none else markItem [a] := by
  rcases t with _ | ⟨b, t⟩
  · simp
  · by_cases h : a = ':'
    · subst h
      by_cases hb : b = ':' <;> simp [markItem, hb]
    · unfold markItem
      split <;> simp_all

/-- A longer token shows what follows its first character itself.  Behind a token
    of one character either the same follows, or nothing that can be seen. -/
theorem head_cases {rest other : Text} (hglance : other.glance <+: rest.glance) (tail : Text) :
    (tail ++ other).head? = (tail ++ rest).head? ∨
      tail = [] ∧ ∀ c ∈ other.head?, isBlank c = true := by
  rcases tail with _ | ⟨b, tail⟩
  · by_cases hblank : ∀ c ∈ other.head?, isBlank c = true
    · exact .inr ⟨rfl, hblank⟩
    · left
      push Not at hblank
      obtain ⟨c, hc, hsolid⟩ := hblank
      have hrest := Text.head_of_glance hglance hc (by simpa using hsolid)
      rw [List.nil_append, List.nil_append, hc, hrest]
  · exact .inl rfl

/-- With nothing to be seen behind it, only a dot is a member access. -/
theorem dotItem_unseen {a : Char} {t : Text} (h : ∀ c ∈ t.head?, isBlank c = true) :
    dotItem (a :: t) = if a = '.' then some (.dot .plain, 1) else none := by
  have hdot : t.head? ≠ some '.' := fun he => absurd (h '.' he) (by decide)
  have hand : t.head? ≠ some '&' := fun he => absurd (h '&' he) (by decide)
  have hat : t.head? ≠ some '@' := fun he => absurd (h '@' he) (by decide)
  simp [dotItem_cons, hdot, hand, hat]

theorem markItem_unseen {a : Char} {t : Text} (h : ∀ c ∈ t.head?, isBlank c = true) :
    markItem (a :: t) = markItem [a] := by
  have hcolon : t.head? ≠ some ':' := fun he => absurd (h ':' he) (by decide)
  rw [markItem_cons, if_neg (fun he => hcolon he.2)]

/-- The characters that are marks by themselves. -/
def markChars : List Char := ['.', '(', ')', '[', ']', ',', ';', ':']

theorem markItem_none {a : Char} (h : a ∉ markChars) : markItem [a] = none := by
  unfold markItem
  split <;> simp_all [markChars]

theorem no_dot_of_glance {rest other tail : Text} {a : Char}
    (hglance : other.glance <+: rest.glance) (h : dotItem (a :: (tail ++ rest)) = none)
    (ha : tail = [] → a ≠ '.') : dotItem (a :: (tail ++ other)) = none := by
  rcases head_cases hglance tail with hsame | ⟨rfl, hunseen⟩
  · rw [dotItem_cons] at h ⊢
    rw [hsame, h]
  · rw [List.nil_append, dotItem_unseen hunseen, if_neg (ha rfl)]

theorem no_mark_of_glance {rest other tail : Text} {a : Char}
    (hglance : other.glance <+: rest.glance) (h : markItem (a :: (tail ++ rest)) = none)
    (ha : tail = [] → a ∉ markChars) : markItem (a :: (tail ++ other)) = none := by
  rcases head_cases hglance tail with hsame | ⟨rfl, hunseen⟩
  · rw [markItem_cons] at h ⊢
    rw [hsame, h]
  · rw [List.nil_append, markItem_unseen hunseen, markItem_none (ha rfl)]

theorem dotItem_of_glance {rest other tail : Text} {a : Char} {kind : TokenKind}
    (hglance : other.glance <+: rest.glance)
    (h : dotItem (a :: (tail ++ rest)) = some (kind, (a :: tail).length)) :
    dotItem (a :: (tail ++ other)) = some (kind, (a :: tail).length) := by
  rcases head_cases hglance tail with hsame | ⟨rfl, hunseen⟩
  · rw [dotItem_cons] at h ⊢
    rw [hsame, h]
  · rw [List.nil_append, dotItem_unseen hunseen]
    rw [dotItem_cons] at h
    split_ifs at h <;> simp_all

theorem markItem_of_glance {rest other tail : Text} {a : Char} {kind : TokenKind}
    (hglance : other.glance <+: rest.glance)
    (h : markItem (a :: (tail ++ rest)) = some (kind, (a :: tail).length)) :
    markItem (a :: (tail ++ other)) = some (kind, (a :: tail).length) := by
  rcases head_cases hglance tail with hsame | ⟨rfl, hunseen⟩
  · rw [markItem_cons] at h ⊢
    rw [hsame, h]
  · rw [List.nil_append, markItem_unseen hunseen]
    rw [markItem_cons] at h
    split_ifs at h
    exact h

/-! ### Numbers, names and operators -/

theorem numberItem_of_glance {rest other tail : Text} {a : Char} {kind : TokenKind}
    (hglance : other.glance <+: rest.glance)
    (h : numberItem (a :: (tail ++ rest)) = some (kind, (a :: tail).length)) :
    numberItem (a :: (tail ++ other)) = some (kind, (a :: tail).length) := by
  rw [numberItem] at h ⊢
  split at h
  · rename_i hdigit
    simp only [Option.some.injEq, Prod.mk.injEq, List.length_cons] at h
    obtain ⟨rfl, hlength⟩ := h
    rw [if_pos hdigit, (Settled.numberTail a).same hglance (by omega), hlength, List.length_cons]
  · simp at h

/-- A run of a known length is what stands there. -/
theorem Text.takeWhile_of_run {p : Char → Bool} {front rest : Text}
    (h : run p (front ++ rest) = front.length) : (front ++ rest).takeWhile p = front := by
  rw [← take_run, h, List.take_left]

theorem wordItem_of_glance {rest other tail : Text} {a : Char} {kind : TokenKind}
    (hglance : other.glance <+: rest.glance)
    (h : wordItem (a :: (tail ++ rest)) = some (kind, (a :: tail).length)) :
    wordItem (a :: (tail ++ other)) = some (kind, (a :: tail).length) := by
  rw [wordItem] at h ⊢
  split at h
  · rename_i hstart
    simp only [Option.some.injEq, Prod.mk.injEq, List.length_cons, Nat.add_right_cancel_iff] at h
    obtain ⟨hkind, hlength⟩ := h
    have hrun : Text.run continuesName (tail ++ rest) = tail.length := hlength
    have hother : Text.run continuesName (tail ++ other) = tail.length := by
      rw [(Settled.run .continuesName).same hglance hrun.le, hrun]
    rw [Text.takeWhile_of_run hrun] at hkind
    rw [if_pos hstart, Text.takeWhile_of_run hother, ← hkind]
  · simp at h

theorem operatorItem_of_glance (token : Text) {rest other : Text} {kind : TokenKind}
    (hglance : other.glance <+: rest.glance)
    (h : operatorItem (token ++ rest) = some (kind, token.length)) :
    operatorItem (token ++ other) = some (kind, token.length) ∧
      ∃ op ∈ operators, op.toList = token := by
  have hsolid : ∀ op ∈ operators, op.toList.length ≤ 3 ∧ op.toList.any isBlank = false := by
    decide
  obtain ⟨op, hop, hitem⟩ := Option.map_eq_some_iff.mp h
  simp only [Prod.mk.injEq] at hitem
  obtain ⟨rfl, hlength⟩ := hitem
  obtain ⟨hbegins, before, after, hsplit, hbefore⟩ := List.find?_eq_some_iff_append.mp hop
  obtain ⟨u, hu⟩ := Text.beginsWith_iff.mp hbegins
  have htoken : op.toList = token := (List.append_inj hu hlength.symm).1.symm
  have hfound :
      operators.find? (fun op => Text.beginsWith (token ++ other) op.toList) = some op := by
    rw [List.find?_eq_some_iff_append]
    refine ⟨?_, before, after, hsplit, ?_⟩
    · rw [htoken]
      exact Text.beginsWith_iff.mpr ⟨other, rfl⟩
    · intro op' hop'
      have hmem : op' ∈ operators := by rw [hsplit]; exact List.mem_append_left _ hop'
      obtain ⟨hshort, hclear⟩ := hsolid op' hmem
      have hnone := hbefore op' hop'
      simp only [Bool.not_eq_eq_eq_not, Bool.not_true] at hnone ⊢
      by_contra hother
      rw [Bool.not_eq_false] at hother
      have hclear' : ∀ c ∈ op'.toList, isBlank c = false := by
        intro c hc
        simpa using List.any_eq_false.mp hclear c hc
      rw [Text.beginsWith_of_glance hglance hclear' (by omega) hother] at hnone
      simp at hnone
  refine ⟨?_, op, List.mem_of_find?_eq_some hop, htoken⟩
  rw [operatorItem, hfound, Option.map_some, htoken]

/-- The ways in which a plain item is found: each excludes the ones before it. -/
theorem plainItem_eq_some {t : Text} {item : TokenKind × Nat} :
    plainItem t = some item ↔
      dotItem t = some item ∨
        dotItem t = none ∧
          (markItem t = some item ∨
            markItem t = none ∧
              (numberItem t = some item ∨
                numberItem t = none ∧
                  (wordItem t = some item ∨
                    wordItem t = none ∧ operatorItem t = some item))) := by
  simp only [plainItem, Option.orElse_eq_orElse, Option.orElse_eq_or, Option.or_eq_some_iff]

theorem plainItem_of_glance {rest other tail : Text} {a : Char} {kind : TokenKind}
    (hglance : other.glance <+: rest.glance)
    (h : plainItem (a :: (tail ++ rest)) = some (kind, (a :: tail).length)) :
    plainItem (a :: (tail ++ other)) = some (kind, (a :: tail).length) := by
  rw [plainItem_eq_some] at h ⊢
  rcases h with hdot | ⟨hnodot, h⟩
  · exact .inl (dotItem_of_glance hglance hdot)
  right
  rcases h with hmark | ⟨hnomark, h⟩
  · refine ⟨?_, .inl (markItem_of_glance hglance hmark)⟩
    apply no_dot_of_glance hglance hnodot
    rintro rfl rfl
    rw [markItem_cons] at hmark
    simp [markItem] at hmark
  have hclear : tail = [] → a ∉ markChars := by
    rintro rfl ha
    rcases h with hnumber | ⟨-, hword | ⟨-, hop⟩⟩
    · have hdigits : markChars.any Char.isDigit = false := by decide
      simp [numberItem, List.any_eq_false.mp hdigits a ha] at hnumber
    · have hletters : markChars.any startsName = false := by decide
      simp [wordItem, List.any_eq_false.mp hletters a ha] at hword
    · have hmarks : ∀ op ∈ operators, op.toList ∉ markChars.map fun c => [c] := by decide
      obtain ⟨-, op, hop, htoken⟩ := operatorItem_of_glance [a] hglance hop
      exact hmarks op hop (htoken ▸ List.mem_map_of_mem ha)
  have hdot : tail = [] → a ≠ '.' := by
    rintro htail rfl
    exact hclear htail (by decide)
  refine ⟨no_dot_of_glance hglance hnodot hdot, .inr ⟨no_mark_of_glance hglance hnomark hclear, ?_⟩⟩
  rcases h with hnumber | ⟨hnonumber, h⟩
  · exact .inl (numberItem_of_glance hglance hnumber)
  right
  have hnumber : numberItem (a :: (tail ++ other)) = none := by
    simpa [numberItem] using hnonumber
  refine ⟨hnumber, ?_⟩
  rcases h with hword | ⟨hnoword, hop⟩
  · exact .inl (wordItem_of_glance hglance hword)
  right
  have hword : wordItem (a :: (tail ++ other)) = none := by
    simpa [wordItem] using hnoword
  exact ⟨hword, (operatorItem_of_glance (a :: tail) hglance hop).1⟩

/-! ### Strings -/

theorem Text.beginsWith_append {front head : Text} (h : head.length ≤ front.length) (a b : Text) :
    beginsWith (front ++ a) head = beginsWith (front ++ b) head := by
  have hfront : ∀ t, beginsWith (front ++ t) head = beginsWith front head := by
    intro t
    rw [← beginsWith_take h, List.take_left]
  rw [hfront a, hfront b]

/-- Whether a part of a string ends before the text does. -/
def StringPart.isEnded : StringPart → Bool
  | .closed _ | .interpolated _ => true
  | .unterminated _ => false

namespace StringStyle

variable {style : StringStyle}

theorem partFrom_cons {c : Char} (hc : c ≠ '\\') (read : Nat) (t : Text) :
    style.partFrom read (c :: t) =
      if c = '\n' ∧ ¬ style.triple then .unterminated read
      else if style.interpolatesAt (c :: t) then .interpolated (read + 2)
      else if Text.beginsWith (c :: t) style.delimiter then .closed (read + style.delimiter.length)
      else style.partFrom (read + 1) t := by
  rw [partFrom]
  · rintro rfl
    exact absurd rfl hc
  · rintro d u rfl
    exact absurd rfl hc

theorem delimiter_length (style : StringStyle) :
    style.delimiter.length = if style.triple then 3 else 1 := by
  simp [delimiter]

theorem delimiter_length_pos (style : StringStyle) : 0 < style.delimiter.length := by
  rw [delimiter_length]
  split <;> decide

/-- The character that a delimiter begins with begins no interpolation. -/
theorem interpolatesAt_quote (style : StringStyle) (t : Text) :
    style.interpolatesAt (style.quote :: t) = false := by
  by_cases h : style.quote = '"'
  · simp [interpolatesAt, h, Text.beginsWith, List.isPrefixOf]
  · simp [interpolatesAt, h]

theorem interpolatesAt_append {c : Char} {body : Text} (h : 1 ≤ body.length) (a b : Text) :
    style.interpolatesAt (c :: (body ++ a)) = style.interpolatesAt (c :: (body ++ b)) := by
  have hcovers : ['$', '\x7b'].length ≤ (c :: body).length := by simpa using h
  have hmark := Text.beginsWith_append hcovers a b
  simp only [List.cons_append] at hmark
  rw [interpolatesAt, interpolatesAt, hmark]

theorem closesAt_append {c : Char} {body : Text} (h : style.delimiter.length ≤ body.length + 1)
    (a b : Text) :
    Text.beginsWith (c :: (body ++ a)) style.delimiter =
      Text.beginsWith (c :: (body ++ b)) style.delimiter := by
  have hcovers : style.delimiter.length ≤ (c :: body).length := h
  exact Text.beginsWith_append hcovers a b

theorem head_delimiter {c : Char} {t : Text} (h : Text.beginsWith (c :: t) style.delimiter = true) :
    c = style.quote := by
  obtain ⟨rest, hrest⟩ := Text.beginsWith_iff.mp h
  unfold delimiter at hrest
  split at hrest <;> simp_all [List.replicate]

/-- A part that ends has read what ends it. -/
theorem partFrom_reaches (read : Nat) (t : Text)
    (h : (style.partFrom read t).isEnded = true) :
    read < (style.partFrom read t).length ∧
      read + style.delimiter.length ≤ (style.partFrom read t).length + 1 := by
  have hwidth := style.delimiter_length
  have hpos := style.delimiter_length_pos
  have hthree : style.delimiter.length ≤ 3 := by
    rw [hwidth]
    split <;> decide
  fun_induction partFrom style read t with
  | case1 read => simp [StringPart.isEnded] at h
  | case2 read => simp [StringPart.isEnded] at h
  | case3 read c t ih =>
    have hrest := ih h
    omega
  | case4 read c t _ _ _ => simp [StringPart.isEnded] at h
  | case5 read c t =>
    simp only [StringPart.length]
    omega
  | case6 read c t =>
    simp only [StringPart.length]
    omega
  | case7 read c t _ _ _ _ _ ih =>
    have hrest := ih h
    omega

theorem partFrom_le (style : StringStyle) (read : Nat) (t : Text) :
    (style.partFrom read t).length ≤ read + t.length := by
  fun_induction partFrom style read t with
  | case1 read => simp [StringPart.length]
  | case2 read => simp [StringPart.length]
  | case3 read c t ih =>
    simp only [List.length_cons]
    omega
  | case4 read c t _ _ _ => simp [StringPart.length]
  | case5 read c t _ _ _ hmark =>
    simp only [interpolatesAt, Bool.and_eq_true] at hmark
    obtain ⟨rest, hrest⟩ := Text.beginsWith_iff.mp hmark.2
    rw [hrest]
    simp [StringPart.length]
  | case6 read c t _ _ _ _ hclose =>
    obtain ⟨rest, hrest⟩ := Text.beginsWith_iff.mp hclose
    rw [hrest, StringPart.length, List.length_append]
    omega
  | case7 read c t _ _ _ _ _ ih =>
    simp only [List.length_cons]
    omega

/-- A part that ends within `body` is the same whatever follows `body`. -/
theorem partFrom_same {read : Nat} {body rest : Text} (other : Text)
    (hended : (style.partFrom read (body ++ rest)).isEnded = true)
    (hlength : (style.partFrom read (body ++ rest)).length = read + body.length) :
    style.partFrom read (body ++ other) = style.partFrom read (body ++ rest) := by
  induction hn : body.length using Nat.strong_induction_on generalizing read body with
  | h n ih =>
    have hreaches := partFrom_reaches read (body ++ rest) hended
    rcases body with _ | ⟨c, body⟩
    · rw [hlength, List.length_nil] at hreaches
      omega
    by_cases hc : c = '\\'
    · subst hc
      rcases body with _ | ⟨d, body⟩
      · rcases rest with _ | ⟨d, rest⟩
        · simp [partFrom, StringPart.isEnded] at hended
        · have hge := partFrom_ge style (read + 2) rest
          simp only [List.cons_append, List.nil_append, partFrom, List.length_cons,
            List.length_nil] at hlength
          omega
      · simp only [List.cons_append, partFrom, List.length_cons] at hended hlength hn ⊢
        exact ih body.length (by omega) hended (by omega) rfl
    simp only [List.cons_append, partFrom_cons hc] at hended hlength ⊢
    simp only [List.length_cons] at hn hlength
    by_cases hline : c = '\n' ∧ ¬ style.triple = true
    · rw [if_pos hline] at hended
      simp [StringPart.isEnded] at hended
    rw [if_neg hline] at hended hlength ⊢
    rw [if_neg hline]
    by_cases hmark : style.interpolatesAt (c :: (body ++ rest)) = true
    · have hlong : 1 ≤ body.length := by
        simp only [if_pos hmark, StringPart.length] at hlength
        omega
      rw [if_pos hmark, interpolatesAt_append hlong other rest, if_pos hmark]
    rw [if_neg hmark] at hended hlength ⊢
    by_cases hclose : Text.beginsWith (c :: (body ++ rest)) style.delimiter = true
    · simp only [if_pos hclose, StringPart.length] at hlength
      rw [head_delimiter hclose, interpolatesAt_quote, ← head_delimiter hclose,
        closesAt_append (by omega) other rest]
      simp [hclose]
    rw [if_neg hclose] at hended hlength ⊢
    have hreaches := partFrom_reaches (read + 1) (body ++ rest) hended
    rw [interpolatesAt_append (by omega) other rest, if_neg hmark,
      closesAt_append (by omega) other rest, if_neg hclose]
    exact ih body.length (by omega) hended (by omega) rfl

end StringStyle

/-! ### Items -/

/-- What an item for a string says about the part of the string read. -/
theorem stringItem_part {whole cut kind : TokenKind} {triple : Bool}
    {nesting after : List Interpolation} {part : StringPart} {n : Nat}
    (h : stringItem whole cut triple nesting part = .token kind n after) :
    part.isEnded = true ∧ part.length = n := by
  cases part with
  | closed length =>
    simp only [stringItem, Item.token.injEq] at h
    exact ⟨rfl, h.2.1⟩
  | interpolated length =>
    simp only [stringItem, Item.token.injEq] at h
    exact ⟨rfl, h.2.1⟩
  | unterminated length => simp [stringItem] at h

theorem StringStyle.width_cases (quote : Char) (t : Text) :
    (StringStyle.at quote t).delimiter.length = 1 ∨
      (StringStyle.at quote t).delimiter.length = 3 ∧ 2 ≤ t.length := by
  rw [delimiter_length]
  split
  · rename_i htriple
    obtain ⟨rest, hrest⟩ := Text.beginsWith_iff.mp htriple
    right
    simp [hrest]
  · exact .inl rfl

theorem quotedItem_le {nesting after : List Interpolation} {quote : Char} {t : Text}
    {kind : TokenKind} {n : Nat} (h : quotedItem nesting quote t = .token kind n after) :
    n ≤ t.length + 1 := by
  obtain ⟨-, hn⟩ := stringItem_part h
  have hle := StringStyle.partFrom_le (.at quote t) (StringStyle.at quote t).delimiter.length
    (t.drop ((StringStyle.at quote t).delimiter.length - 1))
  rw [List.length_drop] at hle
  rcases StringStyle.width_cases quote t with hwidth | ⟨hwidth, hlong⟩
  · omega
  · omega

/-- A string that ends within `quote :: tail` is delimited by three quotes or not
    whatever is seen behind it. -/
theorem style_of_glance {quote : Char} {tail rest other : Text} (hquote : isBlank quote = false)
    (hglance : other.glance <+: rest.glance)
    (hlong : (StringStyle.at quote (tail ++ rest)).delimiter.length ≤ tail.length) :
    StringStyle.at quote (tail ++ other) = StringStyle.at quote (tail ++ rest) := by
  simp only [StringStyle.at, StringStyle.mk.injEq, true_and]
  by_cases htwo : 2 ≤ tail.length
  · have hcovers : [quote, quote].length ≤ tail.length := htwo
    exact Text.beginsWith_append hcovers other rest
  · have hsingle : (tail ++ rest).beginsWith [quote, quote] = false := by
      by_contra htriple
      rw [StringStyle.delimiter_length, StringStyle.at, if_pos (by simpa using htriple)] at hlong
      omega
    rw [hsingle]
    by_contra hother
    have hquotes : ∀ c ∈ [quote, quote], isBlank c = false := by simpa using hquote
    have htriple := Text.beginsWith_of_glance hglance hquotes (by simp) (by simpa using hother)
    rw [hsingle] at htriple
    simp at htriple

/-- A string that ends within `quote :: tail` is the same whatever follows, if its
    style is. -/
theorem quotedItem_of_style {nesting after : List Interpolation} {quote : Char}
    {tail rest other : Text} {kind : TokenKind}
    (hstyle : (StringStyle.at quote (tail ++ rest)).delimiter.length ≤ tail.length →
      StringStyle.at quote (tail ++ other) = StringStyle.at quote (tail ++ rest))
    (h : quotedItem nesting quote (tail ++ rest) = .token kind (quote :: tail).length after) :
    quotedItem nesting quote (tail ++ other) = .token kind (quote :: tail).length after := by
  obtain ⟨hended, hn⟩ := stringItem_part h
  have hpos := StringStyle.delimiter_length_pos (.at quote (tail ++ rest))
  have hreaches := StringStyle.partFrom_reaches _ _ hended
  rw [hn, List.length_cons] at hreaches
  have hfits : (StringStyle.at quote (tail ++ rest)).delimiter.length - 1 ≤ tail.length := by
    omega
  have hsame := hstyle (by omega)
  simp only [quotedItem, hsame, List.drop_append_of_le_length hfits] at h hended hn ⊢
  rw [StringStyle.partFrom_same other hended, h]
  rw [hn, List.length_cons, List.length_drop]
  omega

theorem quotedItem_of_glance {nesting after : List Interpolation} {quote : Char}
    {tail rest other : Text} {kind : TokenKind} (hquote : isBlank quote = false)
    (hglance : other.glance <+: rest.glance)
    (h : quotedItem nesting quote (tail ++ rest) = .token kind (quote :: tail).length after) :
    quotedItem nesting quote (tail ++ other) = .token kind (quote :: tail).length after :=
  quotedItem_of_style (style_of_glance hquote hglance) h

theorem closeBraceItem_of_glance {nesting after : List Interpolation} {tail rest : Text}
    {kind : TokenKind} (other : Text)
    (h : closeBraceItem (tail ++ rest) nesting = .token kind ('\x7d' :: tail).length after) :
    closeBraceItem (tail ++ other) nesting = .token kind ('\x7d' :: tail).length after := by
  rcases nesting with _ | ⟨⟨triple, _ | depth⟩, outer⟩
  · exact h
  · obtain ⟨hended, hn⟩ := stringItem_part h
    simp only [closeBraceItem] at h ⊢
    rw [StringStyle.partFrom_same other hended, h]
    rw [hn, List.length_cons, Nat.add_comm]
  · exact h

/-- **A token is the same with no more to be seen behind it.** -/
theorem itemAt_of_glance {nesting after : List Interpolation} {token rest other : Text}
    {kind : TokenKind} (h : itemAt nesting (token ++ rest) = .token kind token.length after)
    (inside : kind ≠ .endOfInput) (hglance : other.glance <+: rest.glance) :
    itemAt nesting (token ++ other) = .token kind token.length after := by
  rcases token with _ | ⟨c, tail⟩
  · exact absurd (itemAt_token h inside).1 (by simp)
  simp only [List.cons_append, itemAt] at h ⊢
  split_ifs at h ⊢ with hopen hclose hquote
  · exact h
  · subst hclose
    exact closeBraceItem_of_glance other h
  · have hsolid : isBlank c = false := by
      rcases hquote with rfl | rfl <;> decide
    exact quotedItem_of_glance hsolid hglance h
  · split at h
    · rename_i hplain
      simp only [Item.token.injEq] at h
      obtain ⟨rfl, rfl, rfl⟩ := h
      rw [plainItem_of_glance hglance hplain]
    · simp at h

/-! ### Items stay within the text -/

theorem plainItem_le {t : Text} {kind : TokenKind} {n : Nat}
    (h : plainItem t = some (kind, n)) : n ≤ t.length := by
  rw [plainItem_eq_some] at h
  rcases h with h | ⟨-, h | ⟨-, h | ⟨-, h | ⟨-, h⟩⟩⟩⟩
  · unfold dotItem at h
    split at h <;> simp at h <;> simp [← h.2]
  · unfold markItem at h
    split at h <;> simp at h <;> simp [← h.2]
  · rcases t with _ | ⟨d, t⟩
    · simp [numberItem] at h
    · have htail := (Settled.numberTail d).le_length t
      rw [numberItem] at h
      split at h
      · simp only [Option.some.injEq, Prod.mk.injEq] at h
        rw [List.length_cons]
        omega
      · simp at h
  · rcases t with _ | ⟨c, t⟩
    · simp [wordItem] at h
    · have hword : (t.takeWhile continuesName).length ≤ t.length :=
        (List.takeWhile_prefix continuesName).length_le
      rw [wordItem] at h
      split at h
      · simp only [Option.some.injEq, Prod.mk.injEq, List.length_cons] at h
        rw [List.length_cons]
        omega
      · simp at h
  · obtain ⟨op, hop, hitem⟩ := Option.map_eq_some_iff.mp h
    have hbegins : t.beginsWith op.toList = true := by simpa using List.find?_some hop
    obtain ⟨rest, hrest⟩ := Text.beginsWith_iff.mp hbegins
    simp only [Prod.mk.injEq] at hitem
    rw [hrest, List.length_append]
    omega

theorem itemAt_le {nesting after : List Interpolation} {t : Text} {kind : TokenKind} {n : Nat}
    (h : itemAt nesting t = .token kind n after) : n ≤ t.length := by
  rcases t with _ | ⟨c, t⟩
  · simp only [itemAt, Item.token.injEq] at h
    omega
  cases itemAt_head h with
  | brace hitem _ _ =>
    simp only [Item.token.injEq] at hitem
    rw [hitem.2.1, List.length_cons]
    omega
  | resumed hitem _ _ =>
    obtain ⟨-, hn⟩ := stringItem_part hitem.symm
    rw [← hn, List.length_cons, Nat.add_comm]
    exact StringStyle.partFrom_le _ 1 t
  | quoted hitem _ => exact quotedItem_le hitem.symm
  | plain hitem hplain =>
    simp only [Item.token.injEq] at hitem
    rw [hitem.2.1]
    exact plainItem_le hplain
  | unexpected hitem => simp at hitem

end GroovyShell
