/-
  GroovyShell/Proofs/LiteralMembers.lean
  ======================================
  **A literal and a variable that holds it.**

  Members are offered for a literal by what stands between its brackets, and for
  a variable by the type that was evident when it was assigned.  Two walks decide
  between a list and a map: one looks for a colon at any place directly inside
  the brackets, the other at two places only.  Strings and numbers agree always;
  a literal in brackets agrees with its variable exactly when the two walks do.
-/
import GroovyShell.Completion.Members
import GroovyShell.Proofs.DeclarationLines
import GroovyShell.Proofs.ImportLines
import GroovyShell.Proofs.ReceiverChain
import GroovyShell.Proofs.SessionReplay
import GroovyShell.Proofs.TextEnds

namespace GroovyShell

/-! ### Literals -/

/-- The kinds of tokens that make a literal. -/
inductive IsLiteral : List TokenKind → Prop
  | string : IsLiteral [.string]
  | number : IsLiteral [.number]
  | interpolated {inner : List TokenKind} :
      closesAtEnd (· = .stringStart) (· = .stringEnd) 1 (inner ++ [.stringEnd]) = true →
        IsLiteral (.stringStart :: (inner ++ [.stringEnd]))
  | bracketed {inner : List TokenKind} :
      closesAtEnd TokenKind.opens TokenKind.closes 1 (inner ++ [.closing .square]) = true →
        IsLiteral (.opening .square :: (inner ++ [.closing .square]))

theorem IsLiteral.getLast {kinds : List TokenKind} (h : IsLiteral kinds) :
    ∃ last, kinds.getLast? = some last ∧ last.endsLiteral = true := by
  cases h with
  | string => exact ⟨_, rfl, rfl⟩
  | number => exact ⟨_, rfl, rfl⟩
  | interpolated _ =>
    rw [← List.cons_append]
    exact ⟨.stringEnd, List.getLast?_concat, rfl⟩
  | bracketed _ =>
    rw [← List.cons_append]
    exact ⟨.closing .square, List.getLast?_concat, rfl⟩

/-- Tokens of some kinds, from the first on to the last. -/
theorem tokens_of_kinds {tokens : List Token} {first last : TokenKind} {inner : List TokenKind}
    (h : tokens.map Token.kind = first :: (inner ++ [last])) :
    ∃ opening middle closing, tokens = opening :: (middle ++ [closing]) ∧ opening.kind = first ∧
      middle.map Token.kind = inner ∧ closing.kind = last := by
  obtain ⟨opening, rest, rfl, hfirst, hrest⟩ := List.map_eq_cons_iff.mp h
  obtain ⟨middle, ends, rfl, hinner, hends⟩ := List.map_eq_append_iff.mp hrest
  obtain ⟨closing, rfl, hlast⟩ := List.map_eq_singleton_iff.mp hends
  exact ⟨opening, middle, closing, rfl, hfirst, hinner, hlast⟩

/-- `LiteralText value tokens`: `value` is a literal, from its first character to its
    last, and `tokens` are what it is read as. -/
structure LiteralText (value : Text) (tokens : List Token) : Prop where
  read : tokensOf value = .ok tokens
  opening : ∀ first ∈ tokens.head?, first.position = .start
  closing : ∃ last, EndsInToken value last
  literal : IsLiteral (tokens.map Token.kind)

/-! ### The members of a literal -/

/-- A literal is one piece of an expression. -/
theorem IsLiteral.piece {tokens : List Token} (h : IsLiteral (tokens.map Token.kind)) :
    ∃ group, Piece group tokens := by
  generalize hkinds : tokens.map Token.kind = kinds at h
  cases h with
  | string =>
    obtain ⟨t, rfl, ht⟩ := List.map_eq_singleton_iff.mp hkinds
    exact ⟨none, .single (by rw [ht]; rfl)⟩
  | number =>
    obtain ⟨t, rfl, ht⟩ := List.map_eq_singleton_iff.mp hkinds
    exact ⟨none, .single (by rw [ht]; rfl)⟩
  | interpolated hcloses =>
    obtain ⟨opening, rest, rfl, hfirst, hrest⟩ := List.map_eq_cons_iff.mp hkinds
    exact ⟨none, .interpolated (.intro hfirst rfl (hrest ▸ hcloses))⟩
  | bracketed hcloses =>
    obtain ⟨opening, rest, rfl, hfirst, hrest⟩ := List.map_eq_cons_iff.mp hkinds
    exact ⟨some .square, .group (.intro hfirst rfl (hrest ▸ hcloses))⟩

/-- The members offered at the end of a line. -/
def membersOffered (s : Session) (line : Text) : List Text :=
  match tokensOf line with
  | .error _ => []
  | .ok tokens =>
    match TokenStream.ofTokens tokens with
    | none => []
    | some stream => (completeMembers s stream 0).candidates

/-- Behind a dot every member of the type before it is offered. -/
theorem membersOffered_dot {s : Session} {line type : Text} {tokens : List Token} {dot : Token}
    (h : tokensOf line = .ok (tokens ++ [dot])) (hdot : dot.kind = .dot .plain)
    {group : Option Bracket} (hpiece : Piece group tokens)
    (htype : receiverType s tokens = some type) :
    membersOffered s line = matching [] (membersOf type) := by
  have hstream : TokenStream.ofTokens (tokens ++ [dot]) = some ⟨dot, tokens.reverse⟩ := by
    simp [TokenStream.ofTokens]
  have hwalk := hpiece.receiverBack []
  rw [walkOn, List.append_nil] at hwalk
  have hreceiver : TokenStream.receiver ⟨dot, tokens.reverse⟩ = tokens := by
    simp [TokenStream.receiver, TokenStream.beforeDot, hdot, TokenKind.isDot, hwalk]
  have hword : TokenStream.memberWord ⟨dot, tokens.reverse⟩ = [] := by
    simp [TokenStream.memberWord, hdot, TokenKind.isDot]
  simp only [membersOffered, h, hstream, completeMembers, hreceiver, htype, hword]
  split
  · rename_i hempty
    exact (List.isEmpty_iff.mp hempty).symm
  · rfl

theorem members_gstring : membersOf "String".toList = membersOf "GString".toList := by
  decide +kernel

theorem matching_list_ne_map :
    matching [] (membersOf "List".toList) ≠ matching [] (membersOf "Map".toList) := by
  intro hsame
  have hmap : "keySet()".toList ∈ matching [] (membersOf "Map".toList) :=
    mem_matching.mpr (by decide +kernel)
  rw [← hsame, mem_matching] at hmap
  revert hmap
  decide +kernel

theorem receiverType_enclosed (s : Session) (opening closing : Token) (middle : List Token) :
    receiverType s (opening :: (middle ++ [closing])) =
      typeOfTokens opening.kind closing.kind (opening :: (middle ++ [closing])) := by
  cases middle with
  | nil => rfl
  | cons t middle => simp [receiverType]

/-- Whether a colon stands at one of the two places where assignment looks for one. -/
def showsEntries (tokens : List Token) : Bool := (tokens.tail.take 2).any (·.kind = .colon)

/-- The type before the dot and the type evident from an assignment have the same
    members, unless a literal in brackets is a map to one and a list to the other. -/
theorem literal_types {s : Session} {tokens : List Token} (h : IsLiteral (tokens.map Token.kind)) :
    ∃ type evident, receiverType s tokens = some type ∧ evidentType tokens = some evident ∧
      (matching [] (membersOf evident) = matching [] (membersOf type) ↔
        (∀ first ∈ tokens.head?, first.kind = .opening .square →
          showsEntries tokens = hasEntries 0 tokens)) := by
  generalize hkinds : tokens.map Token.kind = kinds at h
  cases h with
  | string =>
    obtain ⟨t, rfl, ht⟩ := List.map_eq_singleton_iff.mp hkinds
    refine ⟨"String".toList, "String".toList, ?_, ?_, ?_⟩
    · simp [receiverType, typeOfToken, ht]
    · simp [evidentType, ht]
    · simp [ht]
  | number =>
    obtain ⟨t, rfl, ht⟩ := List.map_eq_singleton_iff.mp hkinds
    refine ⟨(numberType t.text).toList, (numberType t.text).toList, ?_, ?_, ?_⟩
    · simp [receiverType, typeOfToken, ht]
    · simp [evidentType, ht]
    · simp [ht]
  | interpolated _ =>
    obtain ⟨opening, middle, closing, rfl, hfirst, -, hlast⟩ := tokens_of_kinds hkinds
    refine ⟨"GString".toList, "String".toList, ?_, ?_, ?_⟩
    · rw [receiverType_enclosed, hfirst, hlast]
      rfl
    · simp [evidentType, hfirst]
    · rw [members_gstring]
      simp [hfirst]
  | bracketed _ =>
    obtain ⟨opening, middle, closing, rfl, hfirst, -, hlast⟩ := tokens_of_kinds hkinds
    let tokens := opening :: (middle ++ [closing])
    refine ⟨if hasEntries 0 tokens then "Map".toList else "List".toList,
      if showsEntries tokens then "Map".toList else "List".toList, ?_, ?_, ?_⟩
    · rw [receiverType_enclosed, hfirst, hlast]
      rfl
    · simp only [evidentType, hfirst, apply_ite some]
      rfl
    · have hbracket : (∀ first ∈ tokens.head?, first.kind = .opening .square →
          showsEntries tokens = hasEntries 0 tokens) ↔ showsEntries tokens = hasEntries 0 tokens := by
        simp [tokens, hfirst]
      rw [hbracket]
      cases showsEntries tokens <;> cases hasEntries 0 tokens
      · simp
      · simpa using matching_list_ne_map
      · simpa using matching_list_ne_map.symm
      · simp

/-! ### The declaration of a literal -/

theorem itemAt_assign {t : Text} (h : ∀ c ∈ t.head?, isBlank c = true)
    (nesting : List Interpolation) : itemAt nesting ('=' :: t) = .token .operator 1 nesting := by
  have halone : itemAt nesting ['='] = .token .operator (['='] : Text).length nesting := by
    have hplain : plainItem ['='] = some (.operator, 1) := by decide
    simp [itemAt, hplain]
  exact itemAt_before_blank halone (by decide) h

/-- An assignment is read as its name, the sign and the words of its value. -/
theorem tokensOf_assigned (v : Identifier) {value : Text} {tokens : List Token}
    (h : tokensOf value = .ok tokens) (hmark : value.beginsWith ['#', '!'] = false) :
    ∃ name sign again, tokensOf (v.text ++ " = ".toList ++ value) = .ok (name :: sign :: again) ∧
      name.word = (.name, v.text) ∧ sign.word = (.operator, ['=']) ∧
      again.map Token.word = tokens.map Token.word := by
  obtain ⟨⟨eof, hend⟩, htokens⟩ := tokensOf_eq_ok.mp h
  let source : Text := v.text ++ " = ".toList ++ value
  let behindName : Lexer := ⟨" = ".toList ++ value, v.text.length, Position.start.after v.text, []⟩
  let behindSign : Lexer := ⟨' ' :: value, v.text.length + 2,
    behindName.position.after " =".toList, []⟩
  have hname : (Lexer.new source).Reads [] ⟨.name, v.text, .start⟩ behindName := by
    have hblank : ∀ c ∈ (" = ".toList ++ value).head?, continuesName c = false := by
      intro c hc
      obtain rfl : ' ' = c := by simpa using hc
      decide
    have hitem := itemAt_plainName v.plain hblank []
    rw [wordKind, v.free] at hitem
    constructor
    · simp [source, behindName, Lexer.new]
    · exact .plain .none
    · exact not_beginsGap_plainName v.plain _
    · exact hitem
    · rfl
    · simp [behindName, Lexer.new]
    · rfl
  have hsign : behindName.Reads [' '] ⟨.operator, ['='], behindName.position.after [' ']⟩
      behindSign := by
    constructor
    · rfl
    · exact .plain (.blank (by decide) .none)
    · exact not_beginsGap_of_ne (by decide) (by decide) _
    · exact itemAt_assign (by simp [behindSign]; decide) []
    · rfl
    · rfl
    · rfl
  have hgap : IsGap (behindSign.offset == 0) value [' '] := .plain (.blank (by decide) .none)
  have hthrough : behindSign.run = (behindSign.skip 1).run :=
    Lexer.run_congr (Lexer.next_through rfl hgap (by simp))
  obtain ⟨hwords, hending⟩ := Lexer.run_elsewhere (l := .new value) (m := behindSign.skip 1) hend
    (by simp [Lexer.skip, behindSign, Lexer.new]) rfl (fun _ => hmark)
  refine ⟨⟨.name, v.text, .start⟩, ⟨.operator, ['='], behindName.position.after [' ']⟩,
    (behindSign.skip 1).run.tokens, ?_, rfl, rfl, ?_⟩
  · rw [tokensOf_eq_ok, lexAll, Lexer.run_token hname.next (by simp),
      Lexer.run_token hsign.next (by simp), hthrough]
    exact ⟨hending, rfl⟩
  · rw [hwords, ← htokens]
    rfl

/-- An assignment declares its variable, and whatever else its value declares. -/
theorem declarationsFrom_assigned {name sign : Token} {text : Text} (hname : name.word = (.name, text))
    (hsign : sign.word = (.operator, ['='])) (value : List Token) :
    declarationsFrom 0 none (name :: sign :: value) =
      .binding text (evidentType value) :: declarationsFrom 0 (some sign) value := by
  obtain ⟨_, _, p⟩ := name
  obtain ⟨_, _, q⟩ := sign
  obtain ⟨rfl, rfl⟩ := Prod.mk.inj hname
  obtain ⟨rfl, rfl⟩ := Prod.mk.inj hsign
  have hsecond : declarationAt (⟨.operator, ['='], q⟩ :: value) = none := rfl
  simp [declarationsFrom, depthAfter, startsStatement, declarationAt_assigned, hsecond]

/-- Inside brackets nothing is declared, nor by the bracket that closes them. -/
theorem declarationsFrom_enclosed {depth : Nat} {before : Option Token} {tokens : List Token}
    (h : closesAtEnd TokenKind.opens TokenKind.closes depth (tokens.map Token.kind) = true) :
    declarationsFrom depth before tokens = [] := by
  induction tokens generalizing depth before with
  | nil => rfl
  | cons t rest ih =>
    simp only [List.map_cons, closesAtEnd, Bool.and_eq_true, decide_eq_true_eq] at h
    obtain ⟨hdepth, hrest⟩ := h
    have hdepthAfter : depthAfter depth t = depthBehind TokenKind.opens TokenKind.closes depth t.kind := by
      unfold depthAfter depthBehind
      cases t.kind <;> rfl
    have hhere : depthAfter depth t = 0 → declarationAt (t :: rest) = none := by
      unfold depthAfter
      intro hzero
      cases hkind : t.kind with
      | closing bracket => simp [declarationAt, hkind]
      | _ =>
        simp only [hkind] at hzero
        omega
    rw [declarationsFrom, ih (hdepthAfter ▸ hrest), List.append_nil]
    split
    · rename_i hstarts
      rw [hhere hstarts.1]
      rfl
    · rfl

/-- A literal that is no interpolated string declares nothing. -/
theorem declarationsFrom_literal {tokens : List Token} (h : IsLiteral (tokens.map Token.kind))
    (hplain : ∀ first ∈ tokens.head?, first.kind ≠ .stringStart) (before : Option Token) :
    declarationsFrom 0 before tokens = [] := by
  generalize hkinds : tokens.map Token.kind = kinds at h
  cases h with
  | string =>
    obtain ⟨t, rfl, ht⟩ := List.map_eq_singleton_iff.mp hkinds
    simp [declarationsFrom, declarationAt, ht]
  | number =>
    obtain ⟨t, rfl, ht⟩ := List.map_eq_singleton_iff.mp hkinds
    simp [declarationsFrom, declarationAt, ht]
  | interpolated _ =>
    obtain ⟨opening, middle, closing, rfl, hfirst, -, -⟩ := tokens_of_kinds hkinds
    exact absurd hfirst (hplain opening rfl)
  | bracketed hcloses =>
    obtain ⟨opening, rest, rfl, hfirst, hrest⟩ := List.map_eq_cons_iff.mp hkinds
    rw [← hrest] at hcloses
    simp [declarationsFrom, depthAfter, hfirst, declarationsFrom_enclosed hcloses]

/-! ### A literal and its variable -/

/-- A literal begins with its first token, so with no `#!` line. -/
theorem LiteralText.unmarked {value : Text} {tokens : List Token} (h : LiteralText value tokens) :
    value.beginsWith ['#', '!'] = false := by
  obtain ⟨-, htokens⟩ := tokensOf_eq_ok.mp h.read
  obtain ⟨last, hemits, -⟩ := Lexer.emits_run (.new value)
  rw [show (Lexer.new value).run.tokens = tokens from htokens] at hemits
  cases hemits with
  | nothing =>
    have hliteral := h.literal
    cases hliteral
  | @token _ after _ first rest hnext hkind _ =>
    obtain ⟨gap, hreads⟩ := Lexer.reads_of_next hnext
    have hplace : Position.behind ([] ++ gap) = .behind [] := by
      rw [Position.behind_append]
      exact hreads.place.symm.trans (h.opening first rfl)
    obtain rfl := Position.behind_append_eq hplace
    have hvalue : value = first.text ++ after.rest := hreads.rest
    have hitem := hreads.item
    rw [← hvalue] at hitem
    by_contra hmark
    obtain ⟨more, hmore⟩ := Text.beginsWith_iff.mp (by simpa using hmark)
    rw [hmore, List.cons_append, itemAt_hash] at hitem
    simp at hitem

/-- The members of a variable whose type is known. -/
theorem membersOffered_variable {s : Session} (v : Identifier) {type : Text}
    (htype : s.variableType v.text = some type) :
    membersOffered s (v.text ++ ['.']) = matching [] (membersOf type) := by
  have hfinished : Spelled [] [] [] [] := .finished
  have hdot : ∀ c ∈ ['.'].head?, continuesName c = false := by
    intro c hc
    obtain rfl : '.' = c := by simpa using hc
    decide
  have hspelled := v.spelled hdot (hfinished.dot (by simp))
  obtain ⟨hending, hwords, -⟩ := Lexer.run_of_spelled hspelled (l := .new (v.text ++ ['.'])) rfl rfl
  obtain ⟨name, rest, htokens, hname, hrest⟩ := List.map_eq_cons_iff.mp hwords
  obtain ⟨dot, rfl, hlast⟩ := List.map_eq_singleton_iff.mp hrest
  obtain ⟨hnameKind, hnameText⟩ := Prod.mk.inj hname
  have hread : tokensOf (v.text ++ ['.']) = .ok ([name] ++ [dot]) :=
    tokensOf_eq_ok.mpr ⟨hending, htokens⟩
  have hknown : s.hasVariable v.text = true := by
    rw [Session.hasVariable, NameMap.contains_iff]
    by_contra hunknown
    rw [Session.variableType, NameMap.find?_eq_none_iff.mpr hunknown] at htype
    simp at htype
  have hpiece : Piece none [name] := .single (by rw [hnameKind]; rfl)
  apply membersOffered_dot hread (Prod.mk.inj hlast).1 hpiece
  simp [receiverType, typeOfToken, hnameKind, hnameText, hknown, htype]

/-- The members of a literal. -/
theorem LiteralText.membersOffered {value type : Text} {tokens : List Token}
    (h : LiteralText value tokens) {s : Session} (htype : receiverType s tokens = some type) :
    membersOffered s (value ++ ['.']) = matching [] (membersOf type) := by
  obtain ⟨-, htokens⟩ := tokensOf_eq_ok.mp h.read
  obtain ⟨last, hlast⟩ := h.closing
  have hkind : last.kind.endsLiteral = true := by
    obtain ⟨kind, hkind, hends⟩ := h.literal.getLast
    rw [List.getLast?_map, ← htokens, hlast.ends, Option.map_some, Option.some.injEq] at hkind
    rwa [hkind]
  have hread := tokensOf_dot hlast (hlast.solid hkind)
  rw [htokens] at hread
  obtain ⟨group, hpiece⟩ := h.literal.piece
  exact membersOffered_dot hread rfl hpiece htype

/-- **A literal and a variable that holds it complete alike**, but for a literal in
    brackets whose colons stand where only one of the two looks, and for a variable
    that an interpolation in its value declares anew. -/
theorem literal_members_agree {value : Text} {tokens : List Token} (h : LiteralText value tokens)
    (v : Identifier) (s : Session) :
    let source := v.text ++ " = ".toList ++ value
    let known := s.record source
    ∃ more, declarations source = .binding v.text (evidentType tokens) :: more ∧
      ((∀ first ∈ tokens.head?, first.kind ≠ .stringStart) → more = []) ∧
      (lastType v.text more = none →
        (membersOffered known (v.text ++ ['.']) = membersOffered known (value ++ ['.']) ↔
          (∀ first ∈ tokens.head?, first.kind = .opening .square →
            showsEntries tokens = hasEntries 0 tokens))) := by
  intro source known
  obtain ⟨name, sign, again, hsource, hname, hsign, hwords⟩ :=
    tokensOf_assigned v h.read h.unmarked
  have hevident := evidentType_words hwords
  have hkinds : again.map Token.kind = tokens.map Token.kind := by
    have hfirst := congrArg (List.map Prod.fst) hwords
    rwa [List.map_map, List.map_map] at hfirst
  have hdeclared : declarations source =
      .binding v.text (evidentType tokens) :: declarationsFrom 0 (some sign) again := by
    rw [declarations, hsource, ← hevident]
    exact declarationsFrom_assigned hname hsign again
  refine ⟨_, hdeclared, ?_, ?_⟩
  · intro hplain
    apply declarationsFrom_literal (hkinds ▸ h.literal)
    have hheads : again.head?.map Token.kind = tokens.head?.map Token.kind := by
      rw [← List.head?_map, ← List.head?_map, hkinds]
    intro first hfirst
    rw [Option.mem_def.mp hfirst, Option.map_some] at hheads
    obtain ⟨t, ht, hkind⟩ := Option.map_eq_some_iff.mp hheads.symm
    rw [← hkind]
    exact hplain t ht
  · intro hnone
    obtain ⟨type, evident, htype, hevidentType, hagree⟩ := literal_types (s := known) h.literal
    have hvariable : known.variableType v.text = some evident := by
      rw [show known = (declarations source).foldl Session.declare s from rfl,
        Session.variableType_declareAll, hdeclared, ← List.singleton_append, lastType_append, hnone,
        lastType_single, hevidentType]
      simp [Declaration.typeFor]
    rw [membersOffered_variable v hvariable, h.membersOffered htype]
    exact hagree

/-- A key in parentheses: the literal is a map, its variable a list. -/
theorem literal_members_agree_parenthesized :
    let value : Text := "[(k): 1]".toList
    let tokens : List Token :=
      [ ⟨.opening .square, "[".toList, ⟨1, 1⟩⟩, ⟨.opening .paren, "(".toList, ⟨1, 2⟩⟩,
        ⟨.name, "k".toList, ⟨1, 3⟩⟩, ⟨.closing .paren, ")".toList, ⟨1, 4⟩⟩,
        ⟨.colon, ":".toList, ⟨1, 5⟩⟩, ⟨.number, "1".toList, ⟨1, 7⟩⟩,
        ⟨.closing .square, "]".toList, ⟨1, 8⟩⟩ ]
    let known := Session.new.record ("v = ".toList ++ value)
    LiteralText value tokens ∧
      membersOffered known "v.".toList ≠ membersOffered known (value ++ ['.']) := by
  intro value tokens known
  have hinner : closesAtEnd TokenKind.opens TokenKind.closes 1
      ([.opening .paren, .name, .closing .paren, .colon, .number] ++ [.closing .square]) = true := by
    decide
  have hliteral : LiteralText value tokens := by
    constructor
    · decide +kernel
    · decide +kernel
    · refine ⟨⟨.closing .square, "]".toList, ⟨1, 8⟩⟩, ⟨⟨.endOfInput, [], ⟨1, 9⟩⟩, ?_⟩, ?_, ?_⟩
      · decide +kernel
      · decide +kernel
      · exact ⟨"[(k): 1".toList, by decide +kernel, by decide +kernel⟩
    · exact .bracketed hinner
  let v : Identifier := ⟨"v".toList, by decide +kernel, by decide +kernel⟩
  obtain ⟨more, -, hmore, hagree⟩ := literal_members_agree hliteral v .new
  have hnone : more = [] := hmore (by decide +kernel)
  have hapart : showsEntries tokens ≠ hasEntries 0 tokens := by decide +kernel
  refine ⟨hliteral, fun hsame => hapart ?_⟩
  exact (hagree (by rw [hnone]; rfl)).mp hsame _ rfl rfl

end GroovyShell
