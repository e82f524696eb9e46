/-
  GroovyShell/Proofs/ImportCommands.lean
  ======================================
  **What the import command accepts, and what an import statement makes of it.**

  The command takes its argument apart from the outside: white space at its ends, the
  word `static`, the first ` as `, a star, the dots.  What it accepts is a grammar
  (`ClauseText`), and both directions rest on one fact: no name holds a blank, so the
  first ` as ` is found where the path ends.  The command then keeps its argument as
  it was typed, whereas an import statement puts its clause together again from words.
-/
import GroovyShell.Proofs.CommandWords
import GroovyShell.Proofs.ImportLines

namespace GroovyShell

/-! ### White space around a text -/

namespace Text

/-- A text that neither begins nor ends with white space. -/
structure IsTrimmed (t : Text) : Prop where
  head : ∀ c ∈ t.head?, isBlank c = false
  last : ∀ c ∈ t.getLast?, isBlank c = false

theorem trimEnd_eq_self {t : Text} (h : ∀ c ∈ t.getLast?, isBlank c = false) : t.trimEnd = t := by
  rw [trimEnd]
  rw [← List.head?_reverse] at h
  cases hback : t.reverse with
  | nil => simpa using hback.symm
  | cons c back =>
    have hc : isBlank c = false := h c (by rw [hback]; rfl)
    rw [List.dropWhile_cons_of_neg (by simp [hc]), ← hback, List.reverse_reverse]

/-- White space at the end of a text is trimmed with what is blank before it. -/
theorem trimEnd_append_blanks (t : Text) {blanks : Text} (h : blanks.isBlankOnly = true) :
    (t ++ blanks).trimEnd = t.trimEnd := by
  have hall : ∀ c ∈ blanks.reverse, isBlank c = true := by
    simpa [isBlankOnly] using h
  rw [trimEnd, List.reverse_append, List.dropWhile_append_of_pos hall, trimEnd]

theorem trimEnd_getLast (t : Text) : ∀ c ∈ t.trimEnd.getLast?, isBlank c = false := by
  intro c hc
  have hhead := List.head?_dropWhile_not isBlank t.reverse
  rw [trimEnd, List.getLast?_reverse] at hc
  rw [Option.mem_def.mp hc] at hhead
  simpa using hhead

theorem isTrimmed_trim (t : Text) : IsTrimmed t.trim := by
  refine ⟨?_, trimEnd_getLast _⟩
  obtain ⟨blanks, htrim, -⟩ := trimEnd_append t.trimStart
  intro c hc
  apply head_trimStart t
  rw [htrim, List.head?_append, show t.trimStart.trimEnd.head? = some c from hc]
  rfl

/-- A text is what is left when it is trimmed, with white space around it. -/
theorem trim_split (t : Text) :
    ∃ before after : Text, before.isBlankOnly = true ∧ after.isBlankOnly = true ∧
      t = before ++ (t.trim ++ after) := by
  obtain ⟨after, htrim, hafter⟩ := trimEnd_append t.trimStart
  refine ⟨t.takeWhile isBlank, after, List.all_takeWhile, hafter, ?_⟩
  rw [trim, ← htrim, trimStart, List.takeWhile_append_dropWhile]

/-- Nothing but white space around a text is trimmed. -/
theorem trim_eq {before core after : Text} (hbefore : before.isBlankOnly = true)
    (hafter : after.isBlankOnly = true) (hcore : IsTrimmed core) :
    trim (before ++ (core ++ after)) = core := by
  rw [trim, trimStart, List.dropWhile_append_of_pos (List.all_eq_true.mp hbefore)]
  cases core with
  | nil =>
    have hnone : (after ++ []).dropWhile isBlank = Text.trimStart [] :=
      List.dropWhile_append_of_pos (List.all_eq_true.mp hafter)
    rw [List.append_nil] at hnone
    rw [List.nil_append, hnone]
    rfl
  | cons c core =>
    have hc : isBlank c = false := hcore.head c rfl
    rw [List.cons_append, List.dropWhile_cons_of_neg (by simp [hc]), ← List.cons_append,
      trimEnd_append_blanks _ hafter, trimEnd_eq_self hcore.last]

end Text

/-! ### The grammar of import clauses -/

/-- A letter, an underscore or a dollar sign, and then any of these and numerals. -/
def NameText (t : Text) : Prop :=
  ∃ c rest, t = c :: rest ∧ (isLetter c = true ∨ c = '_' ∨ c = '$') ∧
    ∀ d ∈ rest, isLetter d = true ∨ isNumeral d = true ∨ d = '_' ∨ d = '$'

/-- `DottedText names t`: the names, with a dot between each two. -/
inductive DottedText : List Text → Text → Prop
  | name {n : Text} : NameText n → DottedText [n] n
  | dot {n t : Text} {names : List Text} : NameText n → DottedText names t →
      DottedText (n :: names) (n ++ '.' :: t)

/-- `PathText whole names t`: the names of a path, with `.*` behind them if it stands
    for all of them. -/
inductive PathText : Bool → List Text → Text → Prop
  | names {names : List Text} {t : Text} : DottedText names t → PathText false names t
  | whole {names : List Text} {t : Text} : DottedText names t →
      PathText true names (t ++ ['.', '*'])

/-- `ClauseText names t`: a path, or a path, white space if any, ` as `, white space
    if any, and a name.  The names are those of the path and the one behind it. -/
inductive ClauseText : List Text → Text → Prop
  | path {whole : Bool} {names : List Text} {t : Text} : PathText whole names t →
      ClauseText names t
  | renamed {whole : Bool} {names : List Text} {t before after n : Text} :
      PathText whole names t → before.isBlankOnly = true → after.isBlankOnly = true → NameText n →
        ClauseText (names ++ [n]) (t ++ (before ++ (" as ".toList ++ (after ++ n))))

/-! ### Names and paths -/

theorem isPlainName_iff {t : Text} : isPlainName t = true ↔ NameText t := by
  cases t with
  | nil => simp [isPlainName, NameText]
  | cons c rest =>
    simp only [isPlainName, startsName, continuesName, Bool.and_eq_true, Bool.or_eq_true,
      List.all_eq_true, beq_iff_eq, or_assoc, NameText]
    constructor
    · rintro ⟨hfirst, hrest⟩
      exact ⟨c, rest, rfl, hfirst, hrest⟩
    · rintro ⟨d, more, heq, hfirst, hrest⟩
      obtain ⟨rfl, rfl⟩ := List.cons.inj heq
      exact ⟨hfirst, hrest⟩

namespace NameText

variable {n : Text}

theorem ne_nil (h : NameText n) : n ≠ [] := by
  obtain ⟨c, rest, rfl, -⟩ := h
  simp

/-- What ends a name stands in none. -/
theorem not_mem (h : NameText n) {c : Char} (hc : continuesName c = false) : c ∉ n := by
  have hplain := isPlainName_iff.mpr h
  cases n with
  | nil => simp
  | cons d rest =>
    simp only [isPlainName, Bool.and_eq_true, List.all_eq_true] at hplain
    intro hmem
    have hcontinues : continuesName c = true := by
      rcases List.mem_cons.mp hmem with rfl | hmem
      · exact continuesName_of_startsName hplain.1
      · exact hplain.2 c hmem
    simp [hc] at hcontinues

theorem not_blank (h : NameText n) : ∀ c ∈ n, isBlank c = false := by
  intro c hmem
  by_contra hblank
  exact h.not_mem (Solid.continuesName c (by simpa using hblank)) hmem

end NameText

namespace DottedText

variable {names : List Text} {t : Text}

theorem ne_nil (h : DottedText names t) : t ≠ [] := by
  cases h with
  | name hn => exact hn.ne_nil
  | dot hn _ => simp

theorem not_blank (h : DottedText names t) : ∀ c ∈ t, isBlank c = false := by
  induction h with
  | name hn => exact hn.not_blank
  | dot hn _ ih =>
    intro c hc
    rcases List.mem_append.mp hc with hc | hc
    · exact hn.not_blank c hc
    · rcases List.mem_cons.mp hc with rfl | hc
      · decide
      · exact ih c hc

theorem star_not_mem (h : DottedText names t) : '*' ∉ t := by
  induction h with
  | name hn => exact hn.not_mem (by decide)
  | dot hn _ ih =>
    have hname := hn.not_mem (by decide : continuesName '*' = false)
    simp [hname, ih]

/-- A text is a dotted text of its parts exactly if they are names. -/
theorem parts_all (h : DottedText names t) : (t.parts '.').all isPlainName = true := by
  induction h with
  | name hn =>
    have hdot := hn.not_mem (by decide : continuesName '.' = false)
    simp [Text.parts_of_not_mem hdot, isPlainName_iff.mpr hn]
  | dot hn _ ih =>
    have hdot := hn.not_mem (by decide : continuesName '.' = false)
    simp [Text.parts_append_mark, Text.parts_of_not_mem hdot, isPlainName_iff.mpr hn, ih]

theorem of_joined {parts : List Text} (hsome : parts ≠ []) (h : ∀ n ∈ parts, NameText n) :
    DottedText parts (Text.joined ['.'] parts) := by
  induction parts with
  | nil => exact absurd rfl hsome
  | cons n parts ih =>
    have hn : NameText n := h n List.mem_cons_self
    cases parts with
    | nil => exact .name hn
    | cons next parts =>
      rw [Text.joined_cons _ _ (by simp), List.append_assoc]
      exact .dot hn (ih (by simp) fun m hm => h m (List.mem_cons_of_mem n hm))

theorem of_parts (h : (t.parts '.').all isPlainName = true) : ∃ names, DottedText names t := by
  have hnames : ∀ n ∈ t.parts '.', NameText n := fun n hn =>
    isPlainName_iff.mp (List.all_eq_true.mp h n hn)
  have hjoined := of_joined (Text.parts_ne_nil '.' t) hnames
  rw [Text.joined_parts] at hjoined
  exact ⟨_, hjoined⟩

end DottedText

theorem Text.dropTail?_append (front tail : Text) :
    (front ++ tail).dropTail? tail = some front := by
  rw [dropTail?, if_pos]
  · simp
  · rw [finishesWith, List.isPrefixOf_iff_prefix, List.reverse_append]
    exact List.prefix_append _ _

theorem Text.dropTail?_eq_some {t tail front : Text} (h : t.dropTail? tail = some front) :
    t = front ++ tail := by
  unfold dropTail? at h
  split at h
  · rename_i hends
    rw [finishesWith, List.isPrefixOf_iff_prefix, List.reverse_prefix] at hends
    obtain ⟨before, rfl⟩ := hends
    simpa using h
  · simp at h

theorem PathText.not_blank {whole : Bool} {names : List Text} {t : Text}
    (h : PathText whole names t) : ∀ c ∈ t, isBlank c = false := by
  cases h with
  | names h => exact h.not_blank
  | whole h =>
    intro c hc
    rcases List.mem_append.mp hc with hc | hc
    · exact h.not_blank c hc
    · rcases List.mem_pair.mp hc with rfl | rfl <;> decide

theorem isImportPath_iff {t : Text} :
    isImportPath t = true ↔ ∃ whole names, PathText whole names t := by
  unfold isImportPath
  cases hstar : t.dropTail? ".*".toList with
  | some front =>
    obtain rfl := Text.dropTail?_eq_some hstar
    simp only [Option.getD_some, Bool.and_eq_true]
    constructor
    · rintro ⟨-, hparts⟩
      obtain ⟨names, hdotted⟩ := DottedText.of_parts hparts
      exact ⟨true, names, .whole hdotted⟩
    · rintro ⟨whole, names, hpath⟩
      generalize htext : front ++ ".*".toList = t at hpath
      cases hpath with
      | names hdotted =>
        subst htext
        exact absurd (List.mem_append_right _ (by decide)) hdotted.star_not_mem
      | whole hdotted =>
        obtain rfl := List.append_cancel_right htext
        exact ⟨by simpa using hdotted.ne_nil, hdotted.parts_all⟩
  | none =>
    simp only [Option.getD_none, Bool.and_eq_true]
    constructor
    · rintro ⟨-, hparts⟩
      obtain ⟨names, hdotted⟩ := DottedText.of_parts hparts
      exact ⟨false, names, .names hdotted⟩
    · rintro ⟨whole, names, hpath⟩
      cases hpath with
      | names hdotted => exact ⟨by simpa using hdotted.ne_nil, hdotted.parts_all⟩
      | @whole _ front hdotted =>
        have hfound := Text.dropTail?_append front ".*".toList
        exact absurd (hstar.symm.trans hfound) (by simp)

/-! ### The word between a path and a name -/

namespace Text

theorem cutAt_eq_some {t mark before after : Text} (h : t.cutAt mark = some (before, after)) :
    t = before ++ (mark ++ after) := by
  induction t generalizing before with
  | nil =>
    unfold cutAt at h
    split at h
    · rename_i hmark
      obtain rfl : mark = [] := by simpa using hmark
      obtain ⟨rfl, rfl⟩ : [] = before ∧ [] = after := by simpa using h
      rfl
    · simp at h
  | cons c t ih =>
    unfold cutAt at h
    split at h
    · rename_i hbegins
      obtain ⟨rest, hrest⟩ := beginsWith_iff.mp hbegins
      rw [hrest, List.drop_left] at h
      obtain ⟨rfl, rfl⟩ : [] = before ∧ rest = after := by simpa using h
      exact hrest
    · obtain ⟨⟨first, rest⟩, hfound, heq⟩ := Option.map_eq_some_iff.mp h
      obtain ⟨rfl, rfl⟩ : c :: first = before ∧ rest = after := by simpa using heq
      rw [ih hfound]
      rfl

/-- A text without blanks is passed over where one is looked for. -/
theorem cutAt_solid {front mark : Text} (hfront : ∀ c ∈ front, isBlank c = false)
    (hmark : ∃ c rest, mark = c :: rest ∧ isBlank c = true) (t : Text) :
    (front ++ t).cutAt mark = (t.cutAt mark).map fun found => (front ++ found.1, found.2) := by
  obtain ⟨b, rest, rfl, hb⟩ := hmark
  induction front with
  | nil => simp
  | cons c front ih =>
    have hc : isBlank c = false := hfront c List.mem_cons_self
    have hother : b ≠ c := by
      rintro rfl
      simp [hb] at hc
    have hnot : beginsWith (c :: (front ++ t)) (b :: rest) = false := by
      simp [beginsWith, List.isPrefixOf, hother]
    rw [List.cons_append, cutAt, hnot, ih fun d hd => hfront d (List.mem_cons_of_mem c hd)]
    simp [Option.map_map, Function.comp_def]

/-- The word `as` is found behind the blanks before it, and not sooner. -/
theorem cutAt_as {before : Text} (hbefore : before.isBlankOnly = true) (rest : Text) :
    (before ++ (" as ".toList ++ rest)).cutAt " as ".toList = some (before, rest) := by
  induction before with
  | nil => rfl
  | cons c before ih =>
    simp only [isBlankOnly, List.all_cons, Bool.and_eq_true] at hbefore
    -- behind the first blank stands another one, and not the word
    have hnext : ∃ d more, before ++ (" as ".toList ++ rest) = d :: more ∧ 'a' ≠ d := by
      cases before with
      | nil => exact ⟨' ', _, rfl, by decide⟩
      | cons d more =>
        refine ⟨d, _, rfl, ?_⟩
        rintro rfl
        simp only [List.all_cons, Bool.and_eq_true] at hbefore
        exact absurd hbefore.2.1 (by decide)
    obtain ⟨d, more, hmore, hd⟩ := hnext
    have hnot : beginsWith (c :: d :: more) " as ".toList = false := by
      simp [beginsWith, List.isPrefixOf, hd]
    rw [List.cons_append, cutAt, hmore, hnot, ← hmore, ih hbefore.2]
    rfl

end Text

theorem Text.IsTrimmed.trim {t : Text} (h : IsTrimmed t) : t.trim = t := by
  have htrim := trim_eq (rfl : isBlankOnly [] = true) (rfl : isBlankOnly [] = true) h
  rwa [List.nil_append, List.append_nil] at htrim

/-- A text that ends with a trimmed one, with white space before it. -/
theorem Text.trim_append {before core : Text} (hbefore : before.isBlankOnly = true)
    (hcore : IsTrimmed core) : trim (before ++ core) = core := by
  have htrim := trim_eq hbefore (rfl : isBlankOnly [] = true) hcore
  rwa [List.append_nil] at htrim

theorem Text.IsTrimmed.of_solid {t : Text} (h : ∀ c ∈ t, isBlank c = false) : IsTrimmed t :=
  ⟨fun c hc => h c (List.mem_of_mem_head? hc), fun c hc => h c (List.mem_of_mem_getLast? hc)⟩

/-- At the ends of a trimmed text stands no white space. -/
theorem Text.IsTrimmed.no_blanks {before core after : Text}
    (h : (before ++ core ++ after).IsTrimmed) (hbefore : before.isBlankOnly = true)
    (hafter : after.isBlankOnly = true) : before = [] ∧ after = [] := by
  constructor
  · cases before with
    | nil => rfl
    | cons c before =>
      have hc : isBlank c = false := h.head c rfl
      simp [isBlankOnly, hc] at hbefore
  · rcases after.eq_nil_or_concat with hnil | ⟨others, c, rfl⟩
    · exact hnil
    · have hc : isBlank c = false := h.last c (by simp [List.getLast?_append])
      simp [isBlankOnly, hc] at hafter

/-- A trimmed text can be imported exactly if it is a clause of the grammar. -/
theorem isImportable_iff {t : Text} (htrimmed : t.IsTrimmed) :
    isImportable t = true ↔ ∃ names, ClauseText names t := by
  have has : ∃ c rest, " as ".toList = c :: rest ∧ isBlank c = true := ⟨' ', _, rfl, by decide⟩
  constructor
  · intro himportable
    unfold isImportable at himportable
    split at himportable
    · rename_i front behind hcut
      simp only [Bool.and_eq_true, isPlainName_iff, isImportPath_iff] at himportable
      obtain ⟨hname, whole, names, hpath⟩ := himportable
      obtain ⟨start, before, hstart, hbefore, hfront⟩ := front.trim_split
      obtain ⟨after, last, hafter, hlast, hbehind⟩ := behind.trim_split
      have ht : t = start ++ (front.trim ++ (before ++ (" as ".toList ++
          (after ++ (behind.trim ++ last))))) := by
        rw [Text.cutAt_eq_some hcut, ← hbehind, ← List.append_assoc front.trim,
          ← List.append_assoc start, ← hfront]
      have hends : (start ++ (front.trim ++ (before ++ (" as ".toList ++
          (after ++ behind.trim)))) ++ last).IsTrimmed := by
        simpa [ht] using htrimmed
      obtain ⟨rfl, rfl⟩ := hends.no_blanks hstart hlast
      refine ⟨names ++ [behind.trim], ?_⟩
      rw [ht, List.append_nil]
      exact .renamed hpath hbefore hafter hname
    · obtain ⟨whole, names, hpath⟩ := isImportPath_iff.mp himportable
      exact ⟨names, .path hpath⟩
  · rintro ⟨names, hclause⟩
    cases hclause with
    | path hpath =>
      have hnone : t.cutAt " as ".toList = none := by
        have hsolid := Text.cutAt_solid hpath.not_blank has []
        rwa [List.append_nil] at hsolid
      rw [isImportable, hnone]
      exact isImportPath_iff.mpr ⟨_, _, hpath⟩
    | @renamed _ _ path before after n hpath hbefore hafter hn =>
      have hcut : (path ++ (before ++ (" as ".toList ++ (after ++ n)))).cutAt " as ".toList =
          some (path ++ before, after ++ n) := by
        rw [Text.cutAt_solid hpath.not_blank has, Text.cutAt_as hbefore]
        rfl
      have hname : (after ++ n).trim = n := Text.trim_append hafter (.of_solid hn.not_blank)
      have hfront : (path ++ before).trim = path :=
        Text.trim_eq (rfl : Text.isBlankOnly [] = true) hbefore (.of_solid hpath.not_blank)
      simp only [isImportable, hcut, hname, hfront, Bool.and_eq_true]
      exact ⟨isPlainName_iff.mpr hn, isImportPath_iff.mpr ⟨_, _, hpath⟩⟩

/-! ### The command -/

/-- A word with white space behind it is the first, and the rest is trimmed. -/
theorem firstWord_append {word : Text} (hsome : word ≠ []) (hword : ∀ c ∈ word, isBlank c = false)
    {gap : Char} (hgap : isBlank gap = true) (rest : Text) :
    firstWord (word ++ gap :: rest) = (word, rest.trim) := by
  have hnothing : Text.isBlankOnly [] = true := rfl
  obtain ⟨before, after, hbefore, hafter, hrest⟩ := rest.trim_split
  by_cases hnone : rest.trim = []
  · have hblank : Text.isBlankOnly (gap :: rest) = true := by
      rw [hrest, hnone]
      simp only [Text.isBlankOnly] at hbefore hafter ⊢
      simp [hgap, hbefore, hafter]
    have htrim : (word ++ gap :: rest).trim = word :=
      Text.trim_eq hnothing hblank (.of_solid hword)
    rw [firstWord, htrim, Text.cut_eq_none_iff.mpr hword, hnone]
  · have hcore : Text.IsTrimmed (word ++ gap :: (before ++ rest.trim)) := by
      constructor
      · intro c hc
        rw [List.head?_append_of_ne_nil _ hsome] at hc
        exact hword c (List.mem_of_mem_head? hc)
      · intro c hc
        apply (Text.isTrimmed_trim rest).last c
        rw [← List.cons_append, ← List.append_assoc, List.getLast?_append_of_ne_nil _ hnone] at hc
        exact hc
    have htrim : (word ++ gap :: rest).trim = word ++ gap :: (before ++ rest.trim) := by
      have hline := Text.trim_eq hnothing hafter hcore
      rwa [List.nil_append, List.append_assoc, List.cons_append, List.append_assoc,
        ← hrest] at hline
    rw [firstWord, htrim, Text.cut_append hword hgap]
    simp only [Text.trim_append hbefore (Text.isTrimmed_trim rest)]

/-- The import command with its argument. -/
def importCommand (argument : Text) : Text := ":import ".toList ++ argument

theorem readCommand_importCommand (argument : Text) :
    readCommand (importCommand argument) = readImport argument.trim := by
  have hsolid : ":import".toList.all (fun c => !isBlank c) = true := by decide
  have hword : ∀ c ∈ ":import".toList, isBlank c = false := fun c hc => by
    simpa using List.all_eq_true.mp hsolid c hc
  have hfirst : firstWord (importCommand argument) = (":import".toList, argument.trim) :=
    firstWord_append (by decide) hword (by decide : isBlank ' ' = true) argument
  have hnamed : CommandName.named ":import".toList = some .addImport := by decide
  rw [readCommand, hfirst]
  simp only [hnamed]

/-- The part of an argument that must be a clause: without white space around it, and
    without one `static ` before it. -/
def importedClause (argument : Text) : Text :=
  match argument.trim.dropHead? "static ".toList with
  | some rest => rest.trim
  | none => argument.trim

theorem isTrimmed_importedClause (argument : Text) : (importedClause argument).IsTrimmed := by
  unfold importedClause
  split
  · exact Text.isTrimmed_trim _
  · exact Text.isTrimmed_trim _

theorem Text.trim_eq_nil_iff {t : Text} : t.trim = [] ↔ t.isBlankOnly = true := by
  constructor
  · intro hnone
    obtain ⟨before, after, hbefore, hafter, ht⟩ := t.trim_split
    rw [ht, hnone, List.nil_append, isBlankOnly_append, hbefore, hafter]
    rfl
  · intro hblank
    have htrim := trim_eq hblank (rfl : isBlankOnly [] = true) (.of_solid (by simp) : IsTrimmed [])
    rwa [List.append_nil, List.append_nil] at htrim

/-- Only a blank argument leaves no clause: behind `static ` in a trimmed text comes
    something. -/
theorem importedClause_eq_nil_iff {argument : Text} :
    importedClause argument = [] ↔ argument.isBlankOnly = true := by
  rw [← Text.trim_eq_nil_iff]
  unfold importedClause
  split
  · rename_i rest hdrop
    have hargument := Text.dropHead?_eq_some_iff.mp hdrop
    have hsome : argument.trim ≠ [] := by
      rw [hargument]
      simp
    simp only [hsome, iff_false]
    intro hnone
    have hblanks := Text.trim_eq_nil_iff.mp hnone
    have htrimmed := Text.isTrimmed_trim argument
    rw [hargument] at htrimmed
    rcases rest.eq_nil_or_concat with rfl | ⟨others, c, rfl⟩
    · exact absurd (htrimmed.last ' ' (by decide)) (by decide)
    · have hc : isBlank c = false :=
        htrimmed.last c (by simp [List.getLast?_append, List.getLast?_cons])
      simp [Text.isBlankOnly, hc] at hblanks
  · rfl

theorem readImport_trim (argument : Text) :
    readImport argument.trim =
      if (importedClause argument).isEmpty then .error (.missingArgument ":import" "name")
      else if isImportable (importedClause argument) then .ok (.addImport argument.trim)
      else .error (.invalid ("Invalid import: " ++ (importedClause argument).string)) := by
  rfl

/-- The command is read exactly if a clause is left of its argument. -/
theorem readCommand_import_ok (argument : Text) (command : Command) :
    readCommand (importCommand argument) = .ok command ↔
      command = .addImport argument.trim ∧ ∃ names, ClauseText names (importedClause argument) := by
  rw [readCommand_importCommand, readImport_trim, ← isImportable_iff (isTrimmed_importedClause _)]
  by_cases hread : isImportable (importedClause argument) = true
  · have hsome : ¬ (importedClause argument).isEmpty = true := by
      intro hnone
      rw [List.isEmpty_iff.mp hnone] at hread
      exact absurd hread (by decide)
    rw [if_neg hsome, if_pos hread, Except.ok.injEq, eq_comm]
    simp [hread]
  · rw [if_neg hread]
    split <;> simp [hread]

/-- **What the import command accepts.**  An argument is missing exactly if it is blank.
    Otherwise the command is read, with its argument trimmed, exactly if without
    `static ` that is a clause of the grammar, and is invalid if it is none. -/
theorem import_command_grammar (argument : Text) :
    (∀ command what, readCommand (importCommand argument) = .error (.missingArgument command what) ↔
        command = ":import" ∧ what = "name" ∧ argument.isBlankOnly = true) ∧
      (∀ command, readCommand (importCommand argument) = .ok command ↔
        command = .addImport argument.trim ∧ ∃ names, ClauseText names (importedClause argument)) ∧
      ∀ reason, readCommand (importCommand argument) = .error (.invalid reason) ↔
        reason = "Invalid import: " ++ (importedClause argument).string ∧
          argument.isBlankOnly = false ∧ ¬ ∃ names, ClauseText names (importedClause argument) := by
  have hread := readCommand_import_ok argument
  rw [← isImportable_iff (isTrimmed_importedClause argument)] at hread ⊢
  refine ⟨?_, hread, ?_⟩ <;> rw [readCommand_importCommand, readImport_trim]
  · intro command what
    rw [← importedClause_eq_nil_iff, ← List.isEmpty_iff]
    split
    · rename_i hnone
      simp [hnone, eq_comm]
    · rename_i hsome
      split <;> simp [hsome]
  · intro reason
    rw [← Bool.not_eq_true, ← importedClause_eq_nil_iff, ← List.isEmpty_iff]
    split
    · rename_i hnone
      simp [hnone]
    · rename_i hsome
      split
      · rename_i himportable
        simp [himportable]
      · rename_i hother
        rw [Except.error.injEq, CommandError.invalid.injEq, eq_comm]
        simp [hsome, hother]

/-! ### The statement with the same argument -/

theorem DottedText.identifiers {names : List Text} {t : Text} (h : DottedText names t)
    (hfree : ∀ n ∈ names, Keyword.lookup n = none) :
    ∃ (first : Identifier) (more : List Identifier), t = first.text ++ Identifier.dotted more := by
  induction h with
  | @name n hn =>
    let first : Identifier := ⟨n, isPlainName_iff.mpr hn, hfree n List.mem_cons_self⟩
    exact ⟨first, [], by simp [Identifier.dotted, first]⟩
  | @dot n t names hn _ ih =>
    let first : Identifier := ⟨n, isPlainName_iff.mpr hn, hfree n List.mem_cons_self⟩
    obtain ⟨second, more, rfl⟩ := ih fun m hm => hfree m (List.mem_cons_of_mem n hm)
    exact ⟨first, second :: more, by simp [first]⟩

/-- A clause without reserved words is that of some import statement, but for the white
    space around the word before its last name. -/
theorem ClauseText.importClause {names : List Text} {t : Text} (h : ClauseText names t)
    (hfree : ∀ n ∈ names, Keyword.lookup n = none) :
    ∃ (c : ImportClause) (before after : Text), before.isBlankOnly = true ∧
      after.isBlankOnly = true ∧ t = c.path ++ c.asTyped before after := by
  have hpath : ∀ {whole : Bool} {names : List Text} {t : Text}, PathText whole names t →
      (∀ n ∈ names, Keyword.lookup n = none) → ∀ renamed : Option Identifier,
        ∃ c : ImportClause, c.path = t ∧ c.renamed = renamed := by
    intro whole names t hpath hfree renamed
    cases hpath with
    | names hdotted =>
      obtain ⟨first, more, rfl⟩ := hdotted.identifiers hfree
      exact ⟨⟨first, more, false, renamed⟩, by simp [ImportClause.path, ImportClause.star], rfl⟩
    | whole hdotted =>
      obtain ⟨first, more, rfl⟩ := hdotted.identifiers hfree
      exact ⟨⟨first, more, true, renamed⟩, by simp [ImportClause.path, ImportClause.star], rfl⟩
  cases h with
  | path h =>
    obtain ⟨c, rfl, hrenamed⟩ := hpath h hfree none
    exact ⟨c, [], [], rfl, rfl, by simp [ImportClause.asTyped, hrenamed]⟩
  | @renamed _ _ _ before after n h hbefore hafter hn =>
    let last : Identifier := ⟨n, isPlainName_iff.mpr hn, hfree n (by simp)⟩
    obtain ⟨c, rfl, hrenamed⟩ := hpath h (fun m hm => hfree m (by simp [hm])) (some last)
    exact ⟨c, before, after, hbefore, hafter, by simp [ImportClause.asTyped, hrenamed, last]⟩

/-- What stands before the clause in a trimmed argument. -/
theorem trim_importedClause (argument : Text) :
    ∃ (isStatic : Bool) (gap : Text), gap.isBlankOnly = true ∧
      argument.trim =
        (if isStatic then "static ".toList ++ gap else []) ++ importedClause argument := by
  unfold importedClause
  split
  · rename_i rest hdrop
    have hargument := Text.dropHead?_eq_some_iff.mp hdrop
    obtain ⟨gap, after, hgap, hafter, hrest⟩ := rest.trim_split
    have htrimmed : Text.IsTrimmed ([] ++ ("static ".toList ++ (gap ++ rest.trim)) ++ after) := by
      have hwhole := Text.isTrimmed_trim argument
      rw [hargument, hrest] at hwhole
      simpa using hwhole
    obtain ⟨-, rfl⟩ := htrimmed.no_blanks rfl hafter
    refine ⟨true, gap, hgap, ?_⟩
    rw [hargument, if_pos rfl, List.append_assoc]
    rw [List.append_nil] at hrest
    rw [← hrest]
  · exact ⟨false, [], rfl, rfl⟩

/-- The command is run whether or not a statement is being typed. -/
theorem process_importCommand {argument : Text} {clause : Text}
    (hread : readCommand (importCommand argument) = .ok (.addImport clause)) (r : Repl) :
    (r.process (importCommand argument)).1.session.imports = r.session.imports.add clause.trim := by
  have hnames : Repl.namesCommand (importCommand argument) = true := by
    rw [Repl.namesCommand_iff_known, hread]
    simp
  have hblank : (importCommand argument).isBlankOnly = false := rfl
  have hcolon : isCommandLine (importCommand argument) = true := rfl
  have hrole : r.role (importCommand argument) = .command (.ok (.addImport clause)) := by
    simp [Repl.role, Repl.isCommand, hblank, hcolon, hnames, hread]
  rw [Repl.process_command hrole]
  rfl

namespace ImportClause

/-- A statement spells the same words with white space in its clause. -/
theorem declarations_typed (c : ImportClause) (isStatic : Bool)
    {lead gap before after trailing : Text} (hlead : lead.isBlankOnly = true)
    (hgap : gap.isBlankOnly = true) (hbefore : before.isBlankOnly = true)
    (hafter : after.isBlankOnly = true) (htrailing : trailing.isBlankOnly = true) :
    declarations ("import ".toList ++ (lead ++
      ((if isStatic then "static ".toList ++ gap else []) ++
        (c.path ++ (c.asTyped before after ++ trailing))))) = [.importing c.text] := by
  have hclause := c.spelled_typed hbefore hafter htrailing
  obtain ⟨tokens, hread, hwords⟩ :=
    Lexer.tokensOf_of_spelled (spelled_import isStatic hlead hgap hclause)
  exact c.declarations_of_words hread hwords

/-- A clause is no text that begins with `static`, which is a word of its own. -/
theorem text_not_static (c : ImportClause) {gap before after : Text}
    (hgap : gap.isBlankOnly = true) (hbefore : before.isBlankOnly = true)
    (hafter : after.isBlankOnly = true) :
    "static ".toList ++ gap ++ (c.path ++ c.asTyped before after) ≠ c.text := by
  intro hsame
  have hnone : Text.isBlankOnly [] = true := rfl
  have hclause := c.spelled_typed hbefore hafter hnone
  rw [List.append_nil] at hclause
  obtain ⟨_, hread, hstatic⟩ :=
    Lexer.tokensOf_of_spelled (spelled_import true hnone hgap hclause)
  obtain ⟨tokens, hagain, hplain⟩ := Lexer.tokensOf_of_spelled (c.spelled_line false)
  have hline : "import ".toList ++ ([] ++ ((if true then "static ".toList ++ gap else []) ++
      (c.path ++ c.asTyped before after))) = c.line false := by
    rw [if_pos rfl, hsame]
    rfl
  rw [hline, hagain, Except.ok.injEq] at hread
  subst hread
  have hwords := hstatic.symm.trans hplain
  simp [words, staticWords, pathWords] at hwords

/-- What was typed is the clause itself exactly if nothing is put together again. -/
theorem typed_eq_text_iff (c : ImportClause) {isStatic : Bool} {gap before after : Text}
    (hgap : gap.isBlankOnly = true) (hbefore : before.isBlankOnly = true)
    (hafter : after.isBlankOnly = true) :
    (if isStatic then "static ".toList ++ gap else []) ++ (c.path ++ c.asTyped before after) =
        c.text ↔
      isStatic = false ∧ (c.renamed = none ∨ before = [] ∧ after = []) := by
  cases isStatic with
  | true => simpa using c.text_not_static hgap hbefore hafter
  | false =>
    simp only [Bool.false_eq_true, if_false, List.nil_append, true_and, text,
      List.append_cancel_left_eq, asTyped, asName]
    cases c.renamed with
    | none => simp
    | some n =>
      constructor
      · intro hsame
        have hlength := congrArg List.length hsame
        simp only [List.length_append] at hlength
        refine .inr ⟨List.length_eq_zero_iff.mp ?_, List.length_eq_zero_iff.mp ?_⟩ <;> omega
      · rintro (hnone | ⟨rfl, rfl⟩)
        · simp at hnone
        · rfl

end ImportClause

/-- **What the command adds and what the statement adds.**  An argument without reserved
    words that is accepted is the clause of one import statement, but for `static` before
    it and white space in it.  The statement declares that clause and nothing else; the
    command adds its argument as it was typed.  The two are the same exactly if there is
    no `static`, and no white space around the word before the last name but its own. -/
theorem import_command_statement {argument : Text} {names : List Text}
    (hclause : ClauseText names (importedClause argument))
    (hfree : ∀ n ∈ names, Keyword.lookup n = none) :
    readCommand (importCommand argument) = .ok (.addImport argument.trim) ∧
      ∃ (c : ImportClause) (isStatic : Bool) (gap before after : Text),
        gap.isBlankOnly = true ∧ before.isBlankOnly = true ∧ after.isBlankOnly = true ∧
        argument.trim = (if isStatic then "static ".toList ++ gap else []) ++
          (c.path ++ c.asTyped before after) ∧
        declarations ("import ".toList ++ argument) = [.importing c.text] ∧
        (∀ r : Repl, (r.process (importCommand argument)).1.session.imports =
          r.session.imports.add argument.trim) ∧
        (argument.trim = c.text ↔
          isStatic = false ∧ (c.renamed = none ∨ before = [] ∧ after = [])) := by
  have hread := (readCommand_import_ok argument _).mpr ⟨rfl, names, hclause⟩
  obtain ⟨isStatic, gap, hgap, htyped⟩ := trim_importedClause argument
  obtain ⟨c, before, after, hbefore, hafter, hc⟩ := hclause.importClause hfree
  obtain ⟨lead, trailing, hlead, htrailing, hargument⟩ := argument.trim_split
  rw [hc] at htyped
  have hwhole : argument = lead ++ ((if isStatic then "static ".toList ++ gap else []) ++
      (c.path ++ (c.asTyped before after ++ trailing))) := by
    rw [htyped, List.append_assoc, List.append_assoc] at hargument
    exact hargument
  refine ⟨hread, c, isStatic, gap, before, after, hgap, hbefore, hafter, htyped, ?_, ?_, ?_⟩
  · rw [hwhole]
    exact c.declarations_typed isStatic hlead hgap hbefore hafter htrailing
  · intro r
    have hadded := process_importCommand hread r
    rwa [(Text.isTrimmed_trim argument).trim] at hadded
  · rw [htyped]
    exact c.typed_eq_text_iff hgap hbefore hafter

/-- A static import with two blanks before its `as` is kept by the command as it is. -/
theorem import_command_statement_static :
    let argument : Text := "static java.util.List  as JList".toList
    let names : List Text := ["java".toList, "util".toList, "List".toList, "JList".toList]
    let r : Repl := ⟨.new, ⟨true, true, true, true, true, true, false⟩, false, true⟩
    ClauseText names (importedClause argument) ∧ (∀ n ∈ names, Keyword.lookup n = none) ∧
      (r.process (importCommand argument)).1.session.imports.names = [argument] ∧
      declarations ("import ".toList ++ argument) =
        [.importing "java.util.List as JList".toList] := by
  intro argument names r
  have hname : ∀ n ∈ names, NameText n := by
    intro n hn
    apply isPlainName_iff.mp
    revert n
    decide
  have hfree : ∀ n ∈ names, Keyword.lookup n = none := by decide +kernel
  have htrim : argument.trim = argument := by decide +kernel
  have hclause : ClauseText names (importedClause argument) := by
    have htext : importedClause argument =
        "java.util.List".toList ++ (" ".toList ++ (" as ".toList ++ ([] ++ "JList".toList))) := by
      decide +kernel
    rw [htext]
    refine .renamed (.names (.dot ?_ (.dot ?_ (.name ?_)))) rfl rfl ?_ <;>
      exact hname _ (by decide)
  obtain ⟨-, c, isStatic, gap, before, after, -, -, -, -, -, hadded, -⟩ :=
    import_command_statement hclause hfree
  refine ⟨hclause, hfree, ?_, by decide +kernel⟩
  rw [hadded r, htrim]
  rfl

end GroovyShell
