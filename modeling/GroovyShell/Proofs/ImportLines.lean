/-
  GroovyShell/Proofs/ImportLines.lean
  ===================================
  **Import statements, from the line typed to the clause recorded.**

  An import is a dotted path of names, with or without a star behind it and a
  name to use in its place.  Its line spells a list of words (`spelled_line`),
  and from these alone follow both what it declares (`declarations_of_words`, on
  however many lines it stands) and whether it is finished.
  The two do not agree: every shape declares its clause, but a star that stands
  last looks like an operator that waits for its right-hand side.
-/
import GroovyShell.Proofs.DeclarationEnds
import GroovyShell.Proofs.Enclosures
import GroovyShell.Proofs.Runs
import GroovyShell.Proofs.Spelling
import Mathlib.Data.List.Chain

namespace GroovyShell

/-! ### Import clauses -/

/-- A name that is no reserved word. -/
structure Identifier where
  text : Text
  plain : isPlainName text = true
  free : Keyword.lookup text = none

namespace Identifier

theorem spelled (n : Identifier) {last nesting : List Interpolation}
    {words : List (TokenKind × Text)} {t : Text} (hend : ∀ c ∈ t.head?, continuesName c = false)
    (h : Spelled last nesting t words) :
    Spelled last nesting (n.text ++ t) ((.name, n.text) :: words) := by
  have hkind : wordKind n.text = .name := by rw [wordKind, n.free]
  rw [← hkind]
  exact h.plainName n.plain hend

theorem text_ne_nil (n : Identifier) : n.text ≠ [] := by
  intro hnil
  have hplain := n.plain
  simp [hnil, isPlainName] at hplain

theorem continuesName_of_mem (n : Identifier) {c : Char} (h : c ∈ n.text) :
    continuesName c = true := by
  have hplain := n.plain
  rcases htext : n.text with _ | ⟨d, tail⟩
  · simp [htext] at h
  · simp only [htext, isPlainName, Bool.and_eq_true, List.all_eq_true] at hplain
    rw [htext] at h
    rcases List.mem_cons.mp h with rfl | h
    · exact continuesName_of_startsName hplain.1
    · exact hplain.2 c h

/-- What ends a name stands in none. -/
theorem not_mem (n : Identifier) {c : Char} (hc : continuesName c = false) : c ∉ n.text := by
  intro h
  rw [n.continuesName_of_mem h] at hc
  simp at hc

theorem text_ne (n : Identifier) {c : Char} (hc : continuesName c = false) : n.text ≠ [c] := by
  intro h
  exact n.not_mem hc (by simp [h])

theorem dot_not_mem (n : Identifier) : '.' ∉ n.text := n.not_mem (by decide)

theorem newline_not_mem (n : Identifier) : '\n' ∉ n.text :=
  n.not_mem (Solid.continuesName '\n' (by decide))

theorem getLast_ne_dot (n : Identifier) : n.text.getLast? ≠ some '.' := by
  intro hlast
  exact n.dot_not_mem (List.mem_of_getLast? hlast)

/-- The parts of a path behind the first, each with its dot. -/
def dotted (names : List Identifier) : Text := names.flatMap fun n => '.' :: n.text

def dottedWords (names : List Identifier) : List (TokenKind × Text) :=
  names.flatMap fun n => [(.dot .plain, ['.']), (.name, n.text)]

@[simp] theorem dotted_cons (n : Identifier) (names : List Identifier) :
    dotted (n :: names) = '.' :: (n.text ++ dotted names) := by
  simp [dotted]

@[simp] theorem dottedWords_cons (n : Identifier) (names : List Identifier) :
    dottedWords (n :: names) = (.dot .plain, ['.']) :: (.name, n.text) :: dottedWords names :=
  rfl

theorem dottedWords_texts (names : List Identifier) :
    ((dottedWords names).map Prod.snd).flatten = dotted names := by
  induction names with
  | nil => rfl
  | cons n names ih => simp [ih]

theorem dotted_getLast (names : List Identifier) {front : Text} (h : front.getLast? ≠ some '.') :
    (front ++ dotted names).getLast? ≠ some '.' := by
  induction names generalizing front with
  | nil => simpa [dotted] using h
  | cons n names ih =>
    have hname : (front ++ '.' :: n.text).getLast? ≠ some '.' := by
      rw [List.getLast?_append_of_ne_nil _ (by simp), List.getLast?_cons_of_ne_nil n.text_ne_nil]
      exact n.getLast_ne_dot
    simpa using ih hname

/-- In front of what ends a name, the parts of a path are read one by one, and
    they end a name themselves. -/
theorem spelled_dotted (names : List Identifier) {last nesting : List Interpolation} {t : Text}
    {words : List (TokenKind × Text)} (hend : ∀ c ∈ t.head?, continuesName c = false)
    (h : Spelled last nesting t words) :
    Spelled last nesting (dotted names ++ t) (dottedWords names ++ words) ∧
      ∀ c ∈ (dotted names ++ t).head?, continuesName c = false := by
  induction names with
  | nil => exact ⟨h, hend⟩
  | cons n names ih =>
    obtain ⟨hspelled, hhead⟩ := ih
    have hname := n.spelled hhead hspelled
    simp only [dotted_cons, dottedWords_cons, List.cons_append, List.append_assoc]
    refine ⟨hname.dot ?_, ?_⟩
    · intro d hd
      have hfirst : d ∈ n.text.head? := by
        rwa [List.head?_append_of_ne_nil _ n.text_ne_nil] at hd
      have hcontinues := n.continuesName_of_mem (List.mem_of_mem_head? hfirst)
      have hmarks : ['.', '&', '@'].any continuesName = false := by decide
      intro hd
      exact List.any_eq_false.mp hmarks d hd hcontinues
    · simp only [List.head?_cons, Option.mem_some_iff, forall_eq']
      decide

end Identifier

/-- What an import statement names: a dotted path of one or more names, possibly
    with `.*` behind it, and possibly a name to be used in its place. -/
structure ImportClause where
  first : Identifier
  more : List Identifier
  whole : Bool
  renamed : Option Identifier

namespace ImportClause

def star (c : ImportClause) : Text := if c.whole then ['.', '*'] else []

def path (c : ImportClause) : Text :=
  c.first.text ++ (Identifier.dotted c.more ++ c.star)

def asName (c : ImportClause) : Text :=
  match c.renamed with
  | none => []
  | some n => " as ".toList ++ n.text

def text (c : ImportClause) : Text := c.path ++ c.asName

/-- The statement that imports a clause. -/
def line (c : ImportClause) (isStatic : Bool) : Text :=
  "import ".toList ++ ((if isStatic then "static ".toList else []) ++ c.text)

/-- Whether a star stands last. -/
def endsInStar (c : ImportClause) : Bool := c.whole && c.renamed.isNone

/-! ### The words of an import -/

def starWords (c : ImportClause) : List (TokenKind × Text) :=
  if c.whole then [(.dot .plain, ['.']), (.operator, ['*'])] else []

def pathWords (c : ImportClause) : List (TokenKind × Text) :=
  (.name, c.first.text) :: (Identifier.dottedWords c.more ++ c.starWords)

def asWords (c : ImportClause) : List (TokenKind × Text) :=
  match c.renamed with
  | none => []
  | some n => [(.keyword .kwAs, "as".toList), (.name, n.text)]

def staticWords (isStatic : Bool) : List (TokenKind × Text) :=
  if isStatic then [(.keyword .kwStatic, "static".toList)] else []

def words (c : ImportClause) (isStatic : Bool) : List (TokenKind × Text) :=
  (.keyword .kwImport, "import".toList) :: (staticWords isStatic ++ (c.pathWords ++ c.asWords))

/-- The name used in the place of a path as it may be typed, with white space around
    the word before it. -/
def asTyped (c : ImportClause) (before after : Text) : Text :=
  match c.renamed with
  | none => []
  | some n => before ++ (" as ".toList ++ (after ++ n.text))

theorem asTyped_nil (c : ImportClause) : c.asTyped [] [] = c.asName := by
  unfold asTyped asName
  cases c.renamed <;> rfl

variable {before after trailing : Text}

theorem asTyped_head (c : ImportClause) (hbefore : before.isBlankOnly = true)
    (htrailing : trailing.isBlankOnly = true) :
    ∀ d ∈ (c.asTyped before after ++ trailing).head?, isBlank d = true := by
  intro d hd
  unfold asTyped at hd
  cases hrenamed : c.renamed with
  | none =>
    rw [hrenamed] at hd
    exact List.all_eq_true.mp htrailing d (List.mem_of_mem_head? hd)
  | some n =>
    rw [hrenamed] at hd
    cases before with
    | nil =>
      obtain rfl : ' ' = d := by simpa using hd
      decide
    | cons b before =>
      obtain rfl : b = d := by simpa using hd
      exact List.all_eq_true.mp hbefore b List.mem_cons_self

theorem spelled_asTyped (c : ImportClause) (hbefore : before.isBlankOnly = true)
    (hafter : after.isBlankOnly = true) (htrailing : trailing.isBlankOnly = true) :
    Spelled [] [] (c.asTyped before after ++ trailing) c.asWords := by
  have hend : Spelled [] [] trailing [] := by
    simpa using (Spelled.finished : Spelled [] [] [] []).blanks htrailing
  unfold asTyped asWords
  cases c.renamed with
  | none => exact hend
  | some n =>
    have hblank : ∀ d ∈ trailing.head?, continuesName d = false := fun d hd =>
      Solid.continuesName d (List.all_eq_true.mp htrailing d (List.mem_of_mem_head? hd))
    have hname := (n.spelled hblank hend).blanks hafter
    have has : Spelled [] [] ("as".toList ++ ' ' :: (after ++ (n.text ++ trailing))) _ :=
      hname.keyword (by decide) (by decide : Keyword.lookup "as".toList = some .kwAs)
    simpa using (has.blank (by decide : isBlank ' ' = true)).blanks hbefore

variable {t : Text} {words : List (TokenKind × Text)}

theorem star_head (c : ImportClause) (hend : ∀ d ∈ t.head?, isBlank d = true) :
    ∀ d ∈ (c.star ++ t).head?, continuesName d = false := by
  intro d hd
  unfold star at hd
  cases hwhole : c.whole with
  | false =>
    rw [hwhole] at hd
    exact Solid.continuesName d (hend d hd)
  | true =>
    rw [hwhole] at hd
    obtain rfl : '.' = d := by simpa using hd
    decide

theorem spelled_star (c : ImportClause) (hend : ∀ d ∈ t.head?, isBlank d = true)
    (h : Spelled [] [] t words) : Spelled [] [] (c.star ++ t) (c.starWords ++ words) := by
  unfold star starWords
  cases c.whole with
  | false => exact h
  | true => exact (h.star hend).dot (by simp)

/-- In front of white space a path is read part by part. -/
theorem spelled_path (c : ImportClause) (hend : ∀ d ∈ t.head?, isBlank d = true)
    (h : Spelled [] [] t words) : Spelled [] [] (c.path ++ t) (c.pathWords ++ words) := by
  obtain ⟨hmore, hhead⟩ := Identifier.spelled_dotted c.more (c.star_head hend) (c.spelled_star hend h)
  simpa [path, pathWords] using c.first.spelled hhead hmore

/-- A clause is read in the same way however much white space stands in it. -/
theorem spelled_typed (c : ImportClause) (hbefore : before.isBlankOnly = true)
    (hafter : after.isBlankOnly = true) (htrailing : trailing.isBlankOnly = true) :
    Spelled [] [] (c.path ++ (c.asTyped before after ++ trailing)) (c.pathWords ++ c.asWords) :=
  c.spelled_path (c.asTyped_head hbefore htrailing)
    (c.spelled_asTyped hbefore hafter htrailing)

/-- A statement may have white space behind its first word, and behind `static`. -/
theorem spelled_import {clause lead gap : Text} (isStatic : Bool) (hlead : lead.isBlankOnly = true)
    (hgap : gap.isBlankOnly = true) (h : Spelled [] [] clause words) :
    Spelled [] []
      ("import ".toList ++ (lead ++ ((if isStatic then "static ".toList ++ gap else []) ++ clause)))
      ((.keyword .kwImport, "import".toList) :: (staticWords isStatic ++ words)) := by
  have himport : isPlainName "import".toList = true ∧
      Keyword.lookup "import".toList = some .kwImport := by decide +kernel
  have hstatic : isPlainName "static".toList = true ∧
      Keyword.lookup "static".toList = some .kwStatic := by decide +kernel
  cases isStatic with
  | false => exact (h.blanks hlead).keyword himport.1 himport.2
  | true =>
    have hword : Spelled [] [] ("static".toList ++ ' ' :: (gap ++ clause)) _ :=
      (h.blanks hgap).keyword hstatic.1 hstatic.2
    exact (hword.blanks hlead).keyword himport.1 himport.2

theorem spelled_line (c : ImportClause) (isStatic : Bool) :
    Spelled [] [] (c.line isStatic) (c.words isStatic) := by
  have hnone : Text.isBlankOnly [] = true := rfl
  have hclause := c.spelled_typed hnone hnone hnone
  rw [asTyped_nil, List.append_nil] at hclause
  cases isStatic with
  | false => exact spelled_import false hnone hnone hclause
  | true => exact spelled_import true hnone hnone hclause

end ImportClause

/-! ### Where nothing is declared -/

/-- No name stands directly behind another. -/
def NamesApart (tokens : List Token) : Prop :=
  tokens.IsChain fun a b => a.kind = .name → b.kind ≠ .name

/-- What may stand in an import behind its first word. -/
def Token.isClausePart (t : Token) : Bool :=
  t.text ≠ ['<'] && t.text ≠ ['='] &&
    (t.kind = .name || t.kind = .dot .plain || t.kind = .operator || t.kind = .keyword .kwAs ||
      t.kind = .keyword .kwStatic)

theorem NamesApart.of_suffix {tokens rest : List Token} (h : NamesApart tokens)
    (hrest : rest <:+ tokens) : NamesApart rest := List.IsChain.suffix h hrest

theorem qualifiedName_apart {first : Token} {tokens : List Token} (hfirst : first.kind = .name)
    (h : NamesApart (first :: tokens)) (name : Text) :
    ∀ t ∈ (qualifiedName name tokens).2.head?, t.kind ≠ .name := by
  have hnext : ∀ t ∈ tokens.head?, t.kind ≠ .name := by
    intro t ht
    cases tokens with
    | nil => simp at ht
    | cons second rest =>
      obtain rfl : second = t := by simpa using ht
      exact (List.isChain_cons_cons.mp h).1 hfirst
  fun_induction qualifiedName name tokens generalizing first with
  | case1 name dot part rest hpair ih =>
    have hrest : NamesApart (part :: rest) := h.of_suffix ⟨[first, dot], rfl⟩
    refine ih hpair.2 hrest ?_
    intro t ht
    cases rest with
    | nil => simp at ht
    | cons third rest =>
      obtain rfl : third = t := by simpa using ht
      exact (List.isChain_cons_cons.mp hrest).1 hpair.2
  | case2 name dot part rest _ => exact hnext
  | case3 name tokens _ => exact hnext

/-- An import holds neither generic arguments nor array brackets. -/
theorem arrayType_clause (name : Text) {tokens : List Token}
    (hparts : ∀ t ∈ tokens, t.isClausePart = true) :
    arrayType name (dropTypeArguments tokens) = (name, tokens) := by
  cases tokens with
  | nil => rfl
  | cons first rest =>
    have hfirst := hparts first List.mem_cons_self
    simp only [Token.isClausePart, Bool.and_eq_true, Bool.or_eq_true, decide_eq_true_eq] at hfirst
    obtain ⟨⟨hangle, -⟩, hkind⟩ := hfirst
    have hsquare : first.kind ≠ .opening .square := by
      intro hsquare
      simp [hsquare] at hkind
    rw [dropTypeArguments, if_neg hangle]
    cases rest <;> simp [arrayType, hsquare]

/-- Behind a type that is read in an import stands no name. -/
theorem typeReference_clause {first : Token} {rest after : List Token} {type : Text}
    (hfirst : first.kind = .name) (hparts : ∀ t ∈ rest, t.isClausePart = true)
    (hapart : NamesApart (first :: rest))
    (h : typeReference (first :: rest) = some (type, after)) :
    ∀ t ∈ after.head?, t.kind ≠ .name := by
  have hbehind := qualifiedName_apart hfirst hapart first.text
  have hsuffix := qualifiedName_suffix first.text rest
  have hkept := arrayType_clause (qualifiedName first.text rest).1
    fun t ht => hparts t (hsuffix.mem ht)
  rw [typeReference] at h
  dsimp only at h
  split at h
  · rw [hkept, Option.some.injEq, Prod.mk.injEq] at h
    exact h.2 ▸ hbehind
  · simp at h

/-- Behind the first word of an import stands no declaration. -/
theorem declarationAt_clause {tokens : List Token} (hparts : ∀ t ∈ tokens, t.isClausePart = true)
    (hapart : NamesApart tokens) : declarationAt tokens = none := by
  induction tokens with
  | nil => rfl
  | cons first rest ih =>
    have hrest : ∀ t ∈ rest, t.isClausePart = true := fun t ht =>
      hparts t (List.mem_cons_of_mem first ht)
    have hfirst := hparts first List.mem_cons_self
    simp only [Token.isClausePart, Bool.and_eq_true, Bool.or_eq_true, decide_eq_true_eq] at hfirst
    rcases hfirst.2 with (((hname | hdot) | hoperator) | has) | hstatic
    · have hvalue : assignedValue rest = none := by
        cases rest with
        | nil => rfl
        | cons second others =>
          have hsecond := hrest second List.mem_cons_self
          simp only [Token.isClausePart, Bool.and_eq_true, decide_eq_true_eq] at hsecond
          simp [assignedValue, Token.isOperator, hsecond.1.2]
      cases hfound : typeReference (first :: rest) with
      | none => simp [declarationAt, hname, hfound, hvalue]
      | some found =>
        have hafter : found.2.head?.any (·.kind = .name) = false := by
          have hhead := typeReference_clause hname hrest hapart hfound
          cases hbehind : found.2.head? with
          | none => rfl
          | some t => simp [hhead t hbehind]
        simp [declarationAt, hname, hfound, hvalue, hafter]
    · simp [declarationAt, hdot]
    · simp [declarationAt, hoperator]
    · simp [declarationAt, has, Keyword.isModifier, Keyword.declaresType, Keyword.isPrimitiveType]
    · have hskip : declarationAt (first :: rest) = declarationAt rest := by
        simp [declarationAt, hstatic, Keyword.isModifier]
      rw [hskip]
      exact ih hrest (hapart.of_suffix (List.suffix_cons first rest))

/-- Where no declaration stands, nothing is declared. -/
theorem declarationsFrom_nothing {tokens : List Token}
    (h : ∀ rest, rest <:+ tokens → declarationAt rest = none) (depth : Nat)
    (before : Option Token) : declarationsFrom depth before tokens = [] := by
  induction tokens generalizing depth before with
  | nil => rfl
  | cons t rest ih =>
    have hhere := h (t :: rest) (List.suffix_refl _)
    have hrest := ih (fun more hmore => h more (hmore.trans (List.suffix_cons t rest)))
    rw [declarationsFrom, hhere, hrest]
    split <;> rfl

namespace ImportClause

/-! ### What is declared -/

theorem path_words (c : ImportClause) : (c.pathWords.map Prod.snd).flatten = c.path := by
  have hstar : (c.starWords.map Prod.snd).flatten = c.star := by
    unfold starWords star
    cases c.whole <;> rfl
  simp [pathWords, path, Identifier.dottedWords_texts, hstar]

/-- A path does not end with a dot. -/
theorem path_getLast (c : ImportClause) : c.path.getLast? ≠ some '.' := by
  have hnames := Identifier.dotted_getLast c.more c.first.getLast_ne_dot
  unfold path star
  cases c.whole with
  | false => simpa using hnames
  | true => simp [List.getLast?_append]

theorem path_ne_nil (c : ImportClause) : c.path ≠ [] := by
  simp [path, c.first.text_ne_nil]

theorem pathWords_cases (c : ImportClause) {word : TokenKind × Text} (h : word ∈ c.pathWords) :
    (∃ n : Identifier, word = (.name, n.text)) ∨ word = (.dot .plain, ['.']) ∨
      word = (.operator, ['*']) := by
  simp only [pathWords, Identifier.dottedWords, List.mem_cons, List.mem_append,
    List.mem_flatMap] at h
  rcases h with rfl | ⟨n, -, rfl | rfl | h⟩ | hstar
  · exact .inl ⟨c.first, rfl⟩
  · exact .inr (.inl rfl)
  · exact .inl ⟨n, rfl⟩
  · exact absurd h (by simp)
  · unfold starWords at hstar
    split at hstar
    · rcases List.mem_pair.mp hstar with rfl | rfl
      · exact .inr (.inl rfl)
      · exact .inr (.inr rfl)
    · simp at hstar

theorem isImportPart_of_mem (c : ImportClause) {t : Token} (h : t.word ∈ c.pathWords) :
    t.isImportPart = true := by
  rcases c.pathWords_cases h with ⟨n, hname⟩ | hdot | hstar
  · have hkind : t.kind = .name := congrArg Prod.fst hname
    simp [Token.isImportPart, hkind]
  · have hkind : t.kind = .dot .plain := congrArg Prod.fst hdot
    simp [Token.isImportPart, hkind]
  · obtain ⟨hkind, htext⟩ : t.kind = .operator ∧ t.text = ['*'] := by
      simpa [Token.word] using hstar
    simp [Token.isImportPart, Token.isOperator, hkind, htext]

/-- Behind a path there is nothing that could belong to it. -/
theorem not_isImportPart_head (c : ImportClause) {tokens : List Token}
    (h : tokens.map Token.word = c.asWords) : tokens.takeWhile Token.isImportPart = [] := by
  unfold asWords at h
  split at h
  · obtain rfl : tokens = [] := by simpa using h
    rfl
  · obtain ⟨word, rest, rfl, hword, -⟩ := List.map_eq_cons_iff.mp h
    have hkind : word.kind = .keyword .kwAs := congrArg Prod.fst hword
    simp [Token.isImportPart, Token.isOperator, hkind]

theorem dropStatic_words (c : ImportClause) (isStatic : Bool) {statics rest : List Token}
    (hstatic : statics.map Token.word = staticWords isStatic)
    (hrest : rest.map Token.word = c.pathWords ++ c.asWords) :
    dropStatic (statics ++ rest) = rest := by
  cases isStatic with
  | false =>
    obtain rfl : statics = [] := by simpa [staticWords] using hstatic
    obtain ⟨t, others, rfl, ht, -⟩ := List.map_eq_cons_iff.mp hrest
    have hkind : t.kind = .name := congrArg Prod.fst ht
    simp [dropStatic, hkind]
  | true =>
    obtain ⟨t, others, rfl, ht, hothers⟩ := List.map_eq_cons_iff.mp hstatic
    obtain rfl : others = [] := by simpa using hothers
    have hkind : t.kind = .keyword .kwStatic := congrArg Prod.fst ht
    simp [dropStatic, hkind]

theorem importAlias_words (c : ImportClause) {tokens : List Token}
    (h : tokens.map Token.word = c.asWords) :
    importAlias tokens = c.renamed.map Identifier.text := by
  unfold asWords at h
  cases hrenamed : c.renamed with
  | none =>
    obtain rfl : tokens = [] := by simpa [hrenamed] using h
    rfl
  | some n =>
    rw [hrenamed] at h
    obtain ⟨word, rest, rfl, hword, hrest⟩ := List.map_eq_cons_iff.mp h
    obtain ⟨name, rest, rfl, hname, -⟩ := List.map_eq_cons_iff.mp hrest
    simp only [Token.word, Prod.mk.injEq] at hword hname
    simp [importAlias, hword.1, hname.1, hname.2]

theorem importDeclaration_words (c : ImportClause) (isStatic : Bool) {tokens : List Token}
    (h : tokens.map Token.word = staticWords isStatic ++ (c.pathWords ++ c.asWords)) :
    importDeclaration tokens = some (.importing c.text) := by
  obtain ⟨statics, rest, rfl, hstatic, hrest⟩ := List.map_eq_append_iff.mp h
  have hdrop := c.dropStatic_words isStatic hstatic hrest
  obtain ⟨parts, behind, rfl, hparts, hbehind⟩ := List.map_eq_append_iff.mp hrest
  have htaken : (parts ++ behind).takeWhile Token.isImportPart = parts := by
    have hall : ∀ t ∈ parts, t.isImportPart = true := by
      intro t ht
      apply c.isImportPart_of_mem
      rw [← hparts]
      exact List.mem_map_of_mem ht
    rw [List.takeWhile_append_of_pos hall, c.not_isImportPart_head hbehind, List.append_nil]
  have hpath : (parts.map Token.text).flatten = c.path := by
    rw [← path_words, ← hparts, List.map_map]
    rfl
  have halias := c.importAlias_words hbehind
  unfold importDeclaration
  simp only [hdrop, htaken, hpath, List.drop_left, halias]
  have hempty : ¬ (c.path.isEmpty = true ∨ c.path.getLast? = some '.') := by
    simp [c.path_ne_nil, c.path_getLast]
  rw [if_neg hempty]
  unfold text asName
  cases c.renamed with
  | none => simp
  | some n => simp

/-- An import holds neither brackets nor semicolons. -/
theorem words_kind (c : ImportClause) (isStatic : Bool) {word : TokenKind × Text}
    (h : word ∈ c.words isStatic) :
    word.1 = .name ∨ word.1 = .dot .plain ∨ word.1 = .operator ∨ ∃ k, word.1 = .keyword k := by
  simp only [words, List.mem_cons, List.mem_append] at h
  rcases h with rfl | hstatic | hpath | has
  · exact .inr (.inr (.inr ⟨_, rfl⟩))
  · unfold staticWords at hstatic
    split at hstatic
    · obtain rfl := List.mem_singleton.mp hstatic
      exact .inr (.inr (.inr ⟨_, rfl⟩))
    · simp at hstatic
  · rcases c.pathWords_cases hpath with ⟨n, rfl⟩ | rfl | rfl
    · exact .inl rfl
    · exact .inr (.inl rfl)
    · exact .inr (.inr (.inl rfl))
  · unfold asWords at has
    split at has
    · simp at has
    · rcases List.mem_pair.mp has with rfl | rfl
      · exact .inr (.inr (.inr ⟨_, rfl⟩))
      · exact .inl rfl

/-- The words of a clause, the word `static` before it included. -/
def clauseWords (c : ImportClause) (isStatic : Bool) : List (TokenKind × Text) :=
  staticWords isStatic ++ (c.pathWords ++ c.asWords)

theorem isClausePart_of_mem (c : ImportClause) (isStatic : Bool) {t : Token}
    (h : t.word ∈ c.clauseWords isStatic) : t.isClausePart = true := by
  have hname (n : Identifier) (hword : t.word = (.name, n.text)) : t.isClausePart = true := by
    obtain ⟨hkind, htext⟩ : t.kind = .name ∧ t.text = n.text := by simpa [Token.word] using hword
    have hangle : n.text ≠ ['<'] := n.text_ne (by decide)
    have hassign : n.text ≠ ['='] := n.text_ne (by decide)
    simp [Token.isClausePart, hkind, htext, hangle, hassign]
  have hplain (kind : TokenKind) (text : Text) (hword : t.word = (kind, text))
      (hpart : Token.isClausePart ⟨kind, text, t.position⟩ = true) : t.isClausePart = true := by
    obtain ⟨rfl, rfl⟩ : t.kind = kind ∧ t.text = text := by simpa [Token.word] using hword
    exact hpart
  simp only [clauseWords, List.mem_append] at h
  rcases h with hstatic | hpath | has
  · unfold staticWords at hstatic
    split at hstatic
    · exact hplain _ _ (List.mem_singleton.mp hstatic) rfl
    · simp at hstatic
  · rcases c.pathWords_cases hpath with ⟨n, hword⟩ | hword | hword
    · exact hname n hword
    · exact hplain _ _ hword rfl
    · exact hplain _ _ hword rfl
  · unfold asWords at has
    split at has
    · simp at has
    · rename_i n _
      rcases List.mem_pair.mp has with hword | hword
      · exact hplain _ _ hword rfl
      · exact hname n hword

theorem clauseWords_apart (c : ImportClause) (isStatic : Bool) :
    (c.clauseWords isStatic).IsChain fun a b => a.1 = .name → b.1 ≠ .name := by
  -- behind the names of the path stands neither of the words that follow it
  have hbehind : ∀ n : Identifier, ((.name, n.text) :: (c.starWords ++ c.asWords)).IsChain
      fun a b : TokenKind × Text => a.1 = .name → b.1 ≠ .name := by
    intro n
    unfold starWords asWords
    cases c.whole <;> cases c.renamed <;> simp [List.isChain_cons_cons]
  have hpath : ∀ (n : Identifier) (more : List Identifier),
      ((.name, n.text) :: (Identifier.dottedWords more ++ (c.starWords ++ c.asWords))).IsChain
        fun a b : TokenKind × Text => a.1 = .name → b.1 ≠ .name := by
    intro n more
    induction more generalizing n with
    | nil => exact hbehind n
    | cons m more ih => simpa [List.isChain_cons_cons] using ih m
  have hclause := hpath c.first c.more
  unfold clauseWords staticWords pathWords
  cases isStatic with
  | false => simpa using hclause
  | true => simpa [List.isChain_cons_cons] using hclause

/-- A text that reads as an import declares its clause, whatever its shape and its
    lines, and nothing else. -/
theorem declarations_of_words (c : ImportClause) {isStatic : Bool} {source : Text}
    {tokens : List Token} (hread : tokensOf source = .ok tokens)
    (hwords : tokens.map Token.word = c.words isStatic) :
    declarations source = [.importing c.text] := by
  obtain ⟨first, rest, rfl, hfirst, hrest⟩ := List.map_eq_cons_iff.mp hwords
  have hkind : first.kind = .keyword .kwImport := congrArg Prod.fst hfirst
  have hdepth : depthAfter 0 first = 0 := by simp [depthAfter, hkind]
  have hhere : declarationAt (first :: rest) = some (.importing c.text) := by
    simp [declarationAt, hkind, Keyword.isModifier, c.importDeclaration_words isStatic hrest]
  -- wherever a line may end in a clause, no declaration begins behind it
  have hinside : ∀ more, more <:+ rest → declarationAt more = none := by
    intro more hmore
    apply declarationAt_clause
    · intro t ht
      apply c.isClausePart_of_mem isStatic
      rw [clauseWords, ← hrest]
      exact List.mem_map_of_mem (hmore.mem ht)
    · have happart : NamesApart rest := by
        have hchain := c.clauseWords_apart isStatic
        rw [clauseWords, ← hrest, List.isChain_map] at hchain
        exact hchain
      exact happart.of_suffix hmore
  rw [declarations, hread]
  simp only [declarationsFrom, hdepth, startsStatement, and_self, if_true, hhere,
    declarationsFrom_nothing hinside]
  rfl

theorem lexAll_line (c : ImportClause) (isStatic : Bool) :
    (∃ eof, (lexAll (c.line isStatic)).ending = .ok eof) ∧
      (lexAll (c.line isStatic)).tokens.map Token.word = c.words isStatic ∧
      (lexAll (c.line isStatic)).lexer.nesting = [] :=
  Lexer.run_of_spelled (c.spelled_line isStatic) rfl rfl

theorem declarations_line (c : ImportClause) (isStatic : Bool) :
    declarations (c.line isStatic) = [.importing c.text] := by
  obtain ⟨hend, hwords, -⟩ := c.lexAll_line isStatic
  exact c.declarations_of_words (tokensOf_eq_ok.mpr ⟨hend, rfl⟩) hwords

theorem line_kind (c : ImportClause) (isStatic : Bool) {t : Token}
    (h : t ∈ (lexAll (c.line isStatic)).tokens) :
    t.kind = .name ∨ t.kind = .dot .plain ∨ t.kind = .operator ∨ ∃ k, t.kind = .keyword k := by
  obtain ⟨-, hwords, -⟩ := c.lexAll_line isStatic
  have hword : t.word ∈ c.words isStatic := by
    rw [← hwords]
    exact List.mem_map_of_mem h
  exact c.words_kind isStatic hword

/-! ### When an import is finished -/

theorem words_getLast (c : ImportClause) (isStatic : Bool) :
    ∃ word, (c.words isStatic).getLast? = some word ∧
      if c.endsInStar then word = (.operator, ['*']) else word.1 = .name := by
  have hsome : c.pathWords ++ c.asWords ≠ [] := by simp [pathWords]
  have hlast : (c.words isStatic).getLast? = (c.pathWords ++ c.asWords).getLast? := by
    rw [words, ← List.cons_append, List.getLast?_append_of_ne_nil _ hsome]
  rw [hlast]
  unfold endsInStar asWords
  cases c.renamed with
  | some n => exact ⟨(.name, n.text), by simp [List.getLast?_append], by simp⟩
  | none =>
    unfold pathWords starWords
    cases c.whole with
    | true =>
      exact ⟨(.operator, ['*']), by simp [List.getLast?_append, List.getLast?_cons], by simp⟩
    | false =>
      rcases c.more.eq_nil_or_concat with hnone | ⟨names, n, hmore⟩
      · exact ⟨(.name, c.first.text), by simp [hnone, Identifier.dottedWords], by simp⟩
      · refine ⟨(.name, n.text), ?_, by simp⟩
        simp [hmore, Identifier.dottedWords, List.getLast?_append, List.getLast?_cons]

/-- Of the words that can stand last only the star waits for something. -/
theorem last_isDangling (c : ImportClause) (isStatic : Bool) :
    (lexAll (c.line isStatic)).tokens.getLast?.any Token.isDangling = c.endsInStar := by
  obtain ⟨-, hwords, -⟩ := c.lexAll_line isStatic
  obtain ⟨word, hword, hstar⟩ := c.words_getLast isStatic
  rw [← hwords, List.getLast?_map, Option.map_eq_some_iff] at hword
  obtain ⟨t, ht, rfl⟩ := hword
  rw [ht, Option.any_some]
  cases hends : c.endsInStar with
  | true =>
    obtain ⟨hkind, htext⟩ : t.kind = .operator ∧ t.text = ['*'] := by
      simpa [hends, Token.word] using hstar
    simp [Token.isDangling, Token.isOperator, hkind, htext]
  | false =>
    have hkind : t.kind = .name := by simpa [hends, Token.word] using hstar
    simp [Token.isDangling, hkind]

theorem completeness_line (c : ImportClause) (isStatic : Bool) :
    completeness (c.line isStatic) = if c.endsInStar then .incomplete else .complete := by
  obtain ⟨⟨eof, hend⟩, -, hnesting⟩ := c.lexAll_line isStatic
  have hsome : (c.line isStatic).isBlankOnly = false := by
    have himport : Text.isBlankOnly "import ".toList = false := by decide
    unfold line
    rw [Text.isBlankOnly_append, himport, Bool.false_and]
  have hbalance : bracketBalance (lexAll (c.line isStatic)).tokens = 0 := by
    apply bracketBalance_eq_zero
    intro t ht
    rcases c.line_kind isStatic ht with hkind | hkind | hkind | ⟨k, hkind⟩ <;>
      simp [Token.bracketChange, hkind]
  unfold completeness
  simp [hsome, hend, hnesting, hbalance, c.last_isDangling isStatic]

/-- With nothing typed before, an import is taken for Groovy. -/
theorem role_line (c : ImportClause) (isStatic : Bool) {r : Repl} (hempty : r.session.buffer = []) :
    r.role (c.line isStatic) = .groovy := by
  have hfirst : ∃ t, c.line isStatic = 'i' :: t := by
    have himport : "import ".toList = 'i' :: "mport ".toList := by decide
    unfold line
    rw [himport]
    exact ⟨_, rfl⟩
  obtain ⟨t, ht⟩ := hfirst
  have hblank : isBlank 'i' = false := by decide
  have hcommand : isCommandLine ('i' :: t) = false := by
    simp [isCommandLine, Text.trimStart, hblank, Text.beginsWith, List.isPrefixOf]
  simp [Repl.role, Repl.isCommand, ht, hempty, hcommand, Text.isBlankOnly, hblank]

end ImportClause

/-- **An import is read in one line unless it ends in a star.**  Typed where no
    statement is open, an import statement of any shape declares its clause; it
    is recorded at once if something follows its star or it has none.  A star
    that stands last is taken for an operator without a right-hand side, and the
    shell waits for more. -/
theorem process_import (c : ImportClause) (isStatic : Bool) {r : Repl}
    (hempty : r.session.buffer = []) :
    declarations (c.line isStatic) = [.importing c.text] ∧
      r.process (c.line isStatic) =
        if c.endsInStar then
          ({ r with session := r.session.pushLine (c.line isStatic) }, .ok .buffered)
        else
          ({ r with session := { r.session with imports := r.session.imports.add c.text } },
            .ok (.recorded (c.line isStatic))) := by
  refine ⟨c.declarations_line isStatic, ?_⟩
  have hrole := c.role_line isStatic hempty
  have hstatement : r.session.statementWith (c.line isStatic) = c.line isStatic := by
    simp [Session.statementWith, hempty, Text.below]
  have hverdict := c.completeness_line isStatic
  cases hends : c.endsInStar with
  | true =>
    rw [hends, if_pos rfl, ← hstatement] at hverdict
    rw [Repl.process_incomplete hrole hverdict, if_pos rfl]
  | false =>
    rw [hends, if_neg (by simp), ← hstatement] at hverdict
    rw [Repl.process_complete hrole hverdict, if_neg (by simp), hstatement]
    obtain ⟨⟨buffer, imports, bindings, methods, classes⟩, completion, color, running⟩ := r
    obtain rfl : buffer = [] := hempty
    simp [Session.record, c.declarations_line isStatic, Session.declare, Session.clearBuffer]

/-- The names of `java.util`, all of them, and all of them under one name. -/
theorem process_import_star :
    let java : Identifier := ⟨"java".toList, by decide, by decide⟩
    let util : Identifier := ⟨"util".toList, by decide, by decide⟩
    let r : Repl := ⟨.new, ⟨true, true, true, true, true, true, false⟩, false, true⟩
    let all : ImportClause := ⟨java, [util], true, none⟩
    let named : ImportClause := ⟨java, [util], true, some ⟨"ju".toList, by decide, by decide⟩⟩
    r.session.buffer = [] ∧ all.line false = "import java.util.*".toList ∧
      declarations (all.line false) = [.importing "java.util.*".toList] ∧
      (r.process (all.line false)).2 = .ok .buffered ∧
      named.line true = "import static java.util.* as ju".toList ∧
      (r.process (named.line true)).1.session.imports.names = ["java.util.* as ju".toList] := by
  intro java util r all named
  have hall := process_import all false (r := r) rfl
  have hnamed := process_import named true (r := r) rfl
  have htext : all.text = "java.util.*".toList := by decide +kernel
  rw [if_pos (by decide), htext] at hall
  rw [if_neg (by decide)] at hnamed
  refine ⟨rfl, by decide +kernel, hall.1, by rw [hall.2], by decide +kernel, ?_⟩
  rw [hnamed.2]
  decide +kernel

end GroovyShell
