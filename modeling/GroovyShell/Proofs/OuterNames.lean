/-
  GroovyShell/Proofs/OuterNames.lean
  ==================================
  **How far from the outermost level a declared name can stand.**

  The walk over a statement counts brackets only to find where a declaration may
  start.  From there each reader moves on by itself: over modifiers and the parts
  of a type, which open nothing, over array brackets, which close at once, and over
  generic arguments, which are skipped by their angle brackets alone.  So whatever
  is open at a declared name was left open by the generic arguments before it, or,
  for interpolations, which the walk does not count, was open where the statement
  started.
-/
import GroovyShell.Proofs.DeclarationLines
import GroovyShell.Proofs.Enclosures
import GroovyShell.Proofs.Nesting
import GroovyShell.Proofs.SessionReplay

namespace GroovyShell

/-- Opened minus ended interpolated strings of some tokens: behind them the code of so
    many interpolations is open. -/
def openStrings (tokens : List Token) : Int :=
  countKind .stringStart tokens - countKind .stringEnd tokens

theorem openStrings_append (tokens more : List Token) :
    openStrings (tokens ++ more) = openStrings tokens + openStrings more := by
  simp only [openStrings, countKind, List.countP_append, Int.natCast_add]
  omega

/-- The lexer has as many interpolations open as its tokens tell. -/
theorem Lexer.Emits.openStrings {source : Text} {tokens : List Token} {after : Lexer}
    (h : (Lexer.new source).Emits tokens after) :
    GroovyShell.openStrings tokens = after.nesting.length := by
  rw [h.balance, GroovyShell.openStrings, show (Lexer.new source).nesting = [] from rfl]
  simp

/-! ### What stands before a declared name -/

/-- Tokens of modifiers, of the keyword of a declaration and of the name of a type. -/
def TokenKind.leads : TokenKind → Bool
  | .keyword _ | .name | .dot .plain => true
  | _ => false

/-- Any number of empty array brackets. -/
inductive ArrayPairs : List Token → Prop
  | none : ArrayPairs []
  | pair {left right : Token} {rest : List Token} : left.kind = .opening .square →
      right.kind = .closing .square → ArrayPairs rest → ArrayPairs (left :: right :: rest)

/-- A name that a declaration introduces, with the tokens that stand before it. -/
structure DeclaredName where
  /-- What stands before the statement. -/
  before : List Token
  /-- The modifiers, the keyword and the name of the type. -/
  head : List Token
  /-- The generic arguments of the type. -/
  arguments : List Token
  /-- The array brackets of the type. -/
  pairs : List Token
  name : Token
  leads : ∀ t ∈ head, t.kind.leads = true
  angled : arguments = [] ∨ arguments.head?.any (·.text = ['<']) = true
  paired : ArrayPairs pairs
  isName : name.kind = .name

namespace DeclaredName

def preceding (n : DeclaredName) : List Token := n.before ++ (n.head ++ (n.arguments ++ n.pairs))

/-- The tokens of the declaration up to its name. -/
def walked (n : DeclaredName) : List Token := n.head ++ (n.arguments ++ (n.pairs ++ [n.name]))

theorem preceding_concat (n : DeclaredName) : n.preceding ++ [n.name] = n.before ++ n.walked := by
  simp [preceding, walked]

end DeclaredName

/-! ### What the parts leave open -/

theorem TokenKind.leads_cases {kind : TokenKind} (h : kind.leads = true) :
    (∃ word, kind = .keyword word) ∨ kind = .name ∨ kind = .dot .plain := by
  cases kind with
  | keyword word => exact .inl ⟨word, rfl⟩
  | name => exact .inr (.inl rfl)
  | dot access =>
    cases access with
    | plain => exact .inr (.inr rfl)
    | _ => simp [leads] at h
  | _ => simp [leads] at h

theorem bracketBalance_leads {tokens : List Token} (h : ∀ t ∈ tokens, t.kind.leads = true) :
    bracketBalance tokens = 0 := by
  apply bracketBalance_eq_zero
  intro t ht
  rcases TokenKind.leads_cases (h t ht) with ⟨word, hkind⟩ | hkind | hkind <;>
    simp [Token.bracketChange, hkind]

theorem openStrings_leads {tokens : List Token} (h : ∀ t ∈ tokens, t.kind.leads = true) :
    openStrings tokens = 0 := by
  have hnone : ∀ kind : TokenKind, kind.leads = false → countKind kind tokens = 0 := by
    intro kind hkind
    rw [countKind, List.countP_eq_zero]
    intro t ht hsame
    rw [decide_eq_true_eq] at hsame
    have hleads := h t ht
    rw [hsame, hkind] at hleads
    simp at hleads
  rw [openStrings, hnone _ rfl, hnone _ rfl]
  rfl

theorem ArrayPairs.bracketBalance {tokens : List Token} (h : ArrayPairs tokens) :
    GroovyShell.bracketBalance tokens = 0 := by
  induction h with
  | none => rfl
  | pair hleft hright _ ih =>
    simp [GroovyShell.bracketBalance, Token.bracketChange, hleft, hright, ih]

theorem ArrayPairs.openStrings {tokens : List Token} (h : ArrayPairs tokens) :
    GroovyShell.openStrings tokens = 0 := by
  induction h with
  | none => rfl
  | @pair left right rest hleft hright _ ih =>
    have hpair : GroovyShell.openStrings [left, right] = 0 := by
      simp [GroovyShell.openStrings, countKind, hleft, hright]
    rw [show left :: right :: rest = [left, right] ++ rest from rfl, openStrings_append, hpair, ih]
    rfl

namespace DeclaredName

/-- Brackets that are open at a declared name were open before the statement, or were
    left open by generic arguments. -/
theorem bracketBalance_preceding (n : DeclaredName) :
    bracketBalance n.preceding = bracketBalance n.before + bracketBalance n.arguments := by
  rw [preceding, bracketBalance_append, bracketBalance_append, bracketBalance_append,
    bracketBalance_leads n.leads, n.paired.bracketBalance, Int.add_zero, Int.zero_add]

theorem openStrings_preceding (n : DeclaredName) :
    openStrings n.preceding = openStrings n.before + openStrings n.arguments := by
  rw [preceding, openStrings_append, openStrings_append, openStrings_append,
    openStrings_leads n.leads, n.paired.openStrings, Int.add_zero, Int.zero_add]

end DeclaredName

/-! ### The readers -/

/-- A qualified name goes on over dots and names. -/
theorem qualifiedName_leads (name : Text) (tokens : List Token) :
    ∃ parts, tokens = parts ++ (qualifiedName name tokens).2 ∧
      ∀ t ∈ parts, t.kind.leads = true := by
  fun_induction qualifiedName name tokens with
  | case1 name dot part rest hpart ih =>
    obtain ⟨parts, hrest, hparts⟩ := ih
    refine ⟨dot :: part :: parts, by rw [List.cons_append, List.cons_append, ← hrest], ?_⟩
    simp only [List.mem_cons, forall_eq_or_imp]
    exact ⟨by rw [hpart.1]; rfl, by rw [hpart.2]; rfl, hparts⟩
  | case2 name dot part rest hpart => exact ⟨[], rfl, by simp⟩
  | case3 name tokens hshort => exact ⟨[], rfl, by simp⟩

theorem dropTypeArguments_angled (tokens : List Token) :
    ∃ arguments, tokens = arguments ++ dropTypeArguments tokens ∧
      (arguments = [] ∨ arguments.head?.any (·.text = ['<']) = true) := by
  cases tokens with
  | nil => exact ⟨[], rfl, .inl rfl⟩
  | cons first rest =>
    by_cases hangle : first.text = ['<']
    · obtain ⟨arguments, hsplit⟩ := dropTypeArguments_suffix (first :: rest)
      refine ⟨arguments, hsplit.symm, ?_⟩
      cases arguments with
      | nil => exact .inl rfl
      | cons t arguments =>
        obtain rfl : t = first := by simpa using congrArg List.head? hsplit
        exact .inr (by simp [hangle])
    · exact ⟨[], by simp [dropTypeArguments, hangle], .inl rfl⟩

theorem arrayType_paired (type : Text) (tokens : List Token) :
    ∃ pairs, tokens = pairs ++ (arrayType type tokens).2 ∧ ArrayPairs pairs := by
  fun_induction arrayType type tokens with
  | case1 type left right rest hpair ih =>
    obtain ⟨pairs, hrest, hpairs⟩ := ih
    refine ⟨left :: right :: pairs, ?_, .pair hpair.1 hpair.2 hpairs⟩
    rw [List.cons_append, List.cons_append, ← hrest]
  | case2 type left right rest hpair => exact ⟨[], rfl, .none⟩
  | case3 type tokens hshort => exact ⟨[], rfl, .none⟩

/-- A type is a name, generic arguments and array brackets. -/
theorem typeReference_walked {first : Token} {rest after : List Token} {type : Text}
    (h : typeReference (first :: rest) = some (type, after)) :
    ∃ parts arguments pairs, rest = parts ++ (arguments ++ (pairs ++ after)) ∧
      (∀ t ∈ parts, t.kind.leads = true) ∧
        (arguments = [] ∨ arguments.head?.any (·.text = ['<']) = true) ∧ ArrayPairs pairs := by
  simp only [typeReference] at h
  split at h
  · obtain ⟨parts, hrest, hparts⟩ := qualifiedName_leads first.text rest
    generalize (qualifiedName first.text rest).1 = name at h
    generalize (qualifiedName first.text rest).2 = behindName at h hrest
    obtain ⟨arguments, hbehind, hangled⟩ := dropTypeArguments_angled behindName
    generalize dropTypeArguments behindName = behindArguments at h hbehind
    obtain ⟨pairs, hpairs, hpaired⟩ := arrayType_paired name behindArguments
    rw [Option.some.injEq] at h
    rw [h] at hpairs
    exact ⟨parts, arguments, pairs, by rw [← hpairs, ← hbehind, ← hrest], hparts, hangled, hpaired⟩
  · simp at h

/-- The name of a method or a variable stands first. -/
theorem namedDeclaration_head {declared : Option Text} {tokens : List Token} {d : Declaration}
    (h : namedDeclaration declared tokens = some d) :
    ∃ name after, tokens = name :: after ∧ name.kind = .name ∧ name.text = d.introduces.2 := by
  cases tokens with
  | nil => simp [namedDeclaration] at h
  | cons name after =>
    simp only [namedDeclaration] at h
    split at h
    · rename_i hname
      split at h
      · obtain rfl := Option.some.inj h
        exact ⟨name, after, rfl, hname, rfl⟩
      · obtain rfl := Option.some.inj h
        exact ⟨name, after, rfl, hname, rfl⟩
    · simp at h

theorem importDeclaration_introduces {tokens : List Token} {d : Declaration}
    (h : importDeclaration tokens = some d) : d.introduces.1 = .imports := by
  simp only [importDeclaration] at h
  split at h
  · simp at h
  · split at h
    · obtain rfl := Option.some.inj h
      rfl
    · obtain rfl := Option.some.inj h
      rfl

/-- `Walks tokens d`: what `d` introduces is the name that a declaration leads to from
    the first of the tokens on. -/
def Walks (tokens : List Token) (d : Declaration) : Prop :=
  ∃ n : DeclaredName, n.before = [] ∧ n.walked <+: tokens ∧ n.name.text = d.introduces.2

/-- More of the head may stand before. -/
theorem Walks.behind {head tokens : List Token} {d : Declaration} (h : Walks tokens d)
    (hhead : ∀ t ∈ head, t.kind.leads = true) : Walks (head ++ tokens) d := by
  obtain ⟨n, hbefore, hwalked, htext⟩ := h
  have hleads : ∀ t ∈ head ++ n.head, t.kind.leads = true := by
    intro t ht
    rcases List.mem_append.mp ht with hfirst | hlater
    · exact hhead t hfirst
    · exact n.leads t hlater
  refine ⟨{ n with head := head ++ n.head, leads := hleads }, hbefore, ?_, htext⟩
  rw [DeclaredName.walked, List.append_assoc]
  exact List.prefix_append_right_inj head |>.mpr hwalked

theorem walks_dropped {p : Token → Bool} {tokens left : List Token} {d : Declaration}
    (hleft : tokens.dropWhile p = left) (hp : ∀ t, p t = true → t.kind.leads = true)
    (h : Walks left d) : Walks tokens d := by
  rw [← List.takeWhile_append_dropWhile (p := p) (l := tokens), hleft]
  apply h.behind
  intro t ht
  exact hp t (List.all_eq_true.mp List.all_takeWhile t ht)

theorem Walks.behind_keyword {first : Token} {rest : List Token} {d : Declaration} {word : Keyword}
    (h : Walks rest d) (hword : first.kind = .keyword word) : Walks (first :: rest) d := by
  have hleads : ∀ t ∈ [first], t.kind.leads = true := by
    intro t ht
    obtain rfl := List.mem_singleton.mp ht
    rw [hword]
    rfl
  exact h.behind hleads

theorem walks_name {name : Token} (after : List Token) {d : Declaration} (hname : name.kind = .name)
    (htext : name.text = d.introduces.2) : Walks (name :: after) d := by
  refine ⟨⟨[], [], [], [], name, by simp, .inl rfl, .none, hname⟩, rfl, ?_, htext⟩
  exact ⟨after, rfl⟩

theorem walks_named {declared : Option Text} {tokens : List Token} {d : Declaration}
    (h : namedDeclaration declared tokens = some d) : Walks tokens d := by
  obtain ⟨name, after, rfl, hname, htext⟩ := namedDeclaration_head h
  exact walks_name after hname htext

theorem walks_assigned {first : Token} {rest : List Token} {d : Declaration}
    (hname : first.kind = .name)
    (h : (assignedValue rest).map (fun value => .binding first.text (evidentType value)) = some d) :
    Walks (first :: rest) d := by
  obtain ⟨value, -, rfl⟩ := Option.map_eq_some_iff.mp h
  exact walks_name rest hname rfl

theorem walks_typed {first : Token} {rest after : List Token} {type : Text} {declared : Option Text}
    {d : Declaration} (hfirst : first.kind = .name)
    (htype : typeReference (first :: rest) = some (type, after))
    (h : namedDeclaration declared after = some d) : Walks (first :: rest) d := by
  obtain ⟨parts, arguments, pairs, rfl, hparts, hangled, hpaired⟩ := typeReference_walked htype
  obtain ⟨name, behind, rfl, hname, htext⟩ := namedDeclaration_head h
  have hleads : ∀ t ∈ first :: parts, t.kind.leads = true := by
    intro t ht
    rcases List.mem_cons.mp ht with rfl | hlater
    · rw [hfirst]
      rfl
    · exact hparts t hlater
  refine ⟨⟨[], first :: parts, arguments, pairs, name, hleads, hangled, hpaired, hname⟩, rfl, ?_,
    htext⟩
  exact ⟨behind, by simp [DeclaredName.walked]⟩

/-- Every declaration but an import leads to its name. -/
theorem declarationAt_walks {tokens : List Token} {d : Declaration}
    (h : declarationAt tokens = some d) (hkind : d.introduces.1 ≠ .imports) : Walks tokens d := by
  unfold declarationAt at h
  dsimp only at h
  generalize hleft : tokens.dropWhile _ = left at h
  apply walks_dropped hleft
  · intro t ht
    cases hkind : t.kind with
    | keyword word => rfl
    | _ => simp [hkind] at ht
  rcases left with _ | ⟨first, rest⟩
  · simp at h
  dsimp only at h
  split at h
  · exact absurd (importDeclaration_introduces h) hkind
  · rename_i hdef
    exact (walks_named h).behind_keyword hdef
  · rename_i word hword
    split at h
    · rcases rest with _ | ⟨name, after⟩
      · simp at h
      dsimp only at h
      split at h
      · rename_i hname
        obtain rfl := Option.some.inj h
        exact (walks_name after hname rfl).behind_keyword hword
      · simp at h
    · split at h
      · exact (walks_named h).behind_keyword hword
      · simp at h
  · rename_i hname
    split at h
    · rename_i type after htype
      split at h
      · exact walks_typed hname htype h
      · exact walks_assigned hname h
    · exact walks_assigned hname h
  · simp at h

/-! ### The walk over a statement -/

/-- A declaration starts at no bracket. -/
theorem depthAfter_of_declarationAt {t : Token} {rest : List Token} {d : Declaration}
    (h : declarationAt (t :: rest) = some d) (depth : Nat) : depthAfter depth t = depth := by
  cases hkind : t.kind with
  | opening bracket => simp [declarationAt, hkind] at h
  | closing bracket => simp [declarationAt, hkind] at h
  | _ => simp [depthAfter, hkind]

/-- Whatever the walk finds starts at depth zero, where a statement may start. -/
theorem declarationsFrom_start {depth : Nat} {before : Option Token} {tokens : List Token}
    {d : Declaration} (h : d ∈ declarationsFrom depth before tokens) :
    ∃ skipped t rest, tokens = skipped ++ t :: rest ∧ skipped.foldl depthAfter depth = 0 ∧
      startsStatement (skipped.getLast?.or before) t = true ∧
        declarationAt (t :: rest) = some d := by
  induction tokens generalizing depth before with
  | nil => simp [declarationsFrom] at h
  | cons t rest ih =>
    simp only [declarationsFrom, List.mem_append] at h
    rcases h with hhere | hlater
    · split at hhere
      · rename_i hstarts
        have hdeclared := Option.mem_toList.mp hhere
        have hdepth := depthAfter_of_declarationAt hdeclared depth
        exact ⟨[], t, rest, rfl, hdepth ▸ hstarts.1, hstarts.2, hdeclared⟩
      · simp at hhere
    · obtain ⟨skipped, start, more, rfl, hdepth, hstarts, hdeclared⟩ := ih hlater
      refine ⟨t :: skipped, start, more, rfl, hdepth, ?_, hdeclared⟩
      cases hlast : skipped.getLast? with
      | none =>
        rw [List.getLast?_eq_none_iff] at hlast
        subst hlast
        exact hstarts
      | some last =>
        rw [hlast] at hstarts
        rw [List.getLast?_cons, hlast]
        exact hstarts

/-- **What can be open at a declared name.**  The name is a token of the source, and
    the statement that declares it starts outside of all brackets.  So the brackets
    that are open at the name are those that the generic arguments of its type leave
    open; the interpolations that are open there are those in which the statement
    starts, and those that the arguments leave open. -/
theorem declared_names_outermost {source : Text} {tokens : List Token}
    (hread : tokensOf source = .ok tokens) {d : Declaration} (hd : d ∈ declarations source)
    (hkind : d.introduces.1 ≠ .imports) :
    ∃ n : DeclaredName, n.preceding ++ [n.name] <+: tokens ∧ n.name.text = d.introduces.2 ∧
      (∀ t ∈ n.walked.head?, startsStatement n.before.getLast? t = true) ∧
      (BracketsNest tokens → bracketBalance n.before = 0 ∧
        bracketBalance n.preceding = bracketBalance n.arguments) ∧
      ∃ after, (Lexer.new source).Emits n.preceding after ∧
        (after.nesting.length : Int) = openStrings n.before + openStrings n.arguments := by
  rw [declarations, hread] at hd
  obtain ⟨skipped, t, rest, hsplit, hdepth, hstarts, hdeclared⟩ := declarationsFrom_start hd
  obtain ⟨walk, hbefore, hwalked, htext⟩ := declarationAt_walks hdeclared hkind
  let n : DeclaredName := { walk with before := skipped }
  have hprefix : n.preceding ++ [n.name] <+: tokens := by
    rw [n.preceding_concat, hsplit]
    exact (List.prefix_append_right_inj skipped).mpr hwalked
  refine ⟨n, hprefix, htext, ?_, ?_, ?_⟩
  · intro first hfirst
    obtain ⟨behind, hbehind⟩ := hwalked
    have hhead := congrArg List.head? hbehind
    rw [List.head?_append, show walk.walked.head? = some first from hfirst] at hhead
    obtain rfl : first = t := by simpa using hhead
    rwa [Option.or_none] at hstarts
  · intro hnest
    have hskipped : skipped <+: tokens := ⟨t :: rest, hsplit.symm⟩
    have hzero : bracketBalance skipped = 0 := by
      rw [← (hnest.of_prefix hskipped).depth, hdepth]
      rfl
    refine ⟨hzero, ?_⟩
    rw [n.bracketBalance_preceding, show n.before = skipped from rfl, hzero, Int.zero_add]
  · obtain ⟨-, hlex⟩ := tokensOf_eq_ok.mp hread
    have hpreceding : n.preceding <+: (lexAll source).tokens := by
      rw [hlex]
      exact (List.prefix_append n.preceding [n.name]).trans hprefix
    obtain ⟨after, hemits⟩ := Lexer.emits_take (.new source) n.preceding.length
    rw [show (Lexer.new source).run.tokens = (lexAll source).tokens from rfl,
      ← List.prefix_iff_eq_take.mp hpreceding] at hemits
    exact ⟨after, hemits, by rw [← hemits.openStrings, n.openStrings_preceding]⟩

/-- Generic arguments that end inside a group: the variable is declared within it. -/
theorem declared_names_outermost_grouped :
    let source : Text := "A < (b > c)".toList
    let tokens : List Token :=
      [ ⟨.name, "A".toList, ⟨1, 1⟩⟩, ⟨.operator, "<".toList, ⟨1, 3⟩⟩,
        ⟨.opening .paren, "(".toList, ⟨1, 5⟩⟩, ⟨.name, "b".toList, ⟨1, 6⟩⟩,
        ⟨.operator, ">".toList, ⟨1, 8⟩⟩, ⟨.name, "c".toList, ⟨1, 10⟩⟩,
        ⟨.closing .paren, ")".toList, ⟨1, 11⟩⟩ ]
    tokensOf source = .ok tokens ∧
      .binding "c".toList (some "A".toList) ∈ declarations source ∧
      ∃ n : DeclaredName, n.preceding ++ [n.name] <+: tokens ∧ n.name.text = "c".toList ∧
        bracketBalance n.preceding = 1 ∧ bracketBalance n.arguments = 1 := by
  intro source tokens
  have hread : tokensOf source = .ok tokens := by decide +kernel
  have hdeclared : .binding "c".toList (some "A".toList) ∈ declarations source := by decide +kernel
  obtain ⟨n, hprefix, hname, -, hbrackets, -⟩ :=
    declared_names_outermost hread hdeclared (by simp [Declaration.introduces])
  have htext : n.name.text = "c".toList := hname
  refine ⟨hread, hdeclared, n, hprefix, htext, ?_⟩
  have hnest : BracketsNest tokens := by
    have hfronts : ∀ k < 8, 0 ≤ bracketBalance (tokens.take k) := by decide
    intro front hfront
    rw [List.prefix_iff_eq_take.mp hfront]
    exact hfronts _ (Nat.lt_succ_of_le hfront.length_le)
  -- only the sixth token is written as the name
  have hsixth : ∀ k < 7, (tokens.take (k + 1)).getLast?.any (·.text = "c".toList) = true → k = 5 := by
    decide
  have htake := List.prefix_iff_eq_take.mp hprefix
  rw [List.length_append, List.length_singleton] at htake
  have hlength := hprefix.length_le
  rw [List.length_append, List.length_singleton] at hlength
  have hplace : n.preceding.length = 5 := by
    apply hsixth _ hlength
    rw [← htake, List.getLast?_concat]
    simp [htext]
  rw [hplace] at htake
  have hsplit : n.preceding ++ [n.name] =
      tokens.take 5 ++ [⟨.name, "c".toList, ⟨1, 10⟩⟩] := htake
  obtain ⟨hpreceding, -⟩ := List.append_inj' hsplit rfl
  obtain ⟨-, hbalance⟩ := hbrackets hnest
  rw [← hbalance, hpreceding]
  exact ⟨rfl, rfl⟩

/-- A statement in the code of an interpolation declares its variable. -/
example : declarations "\"$\x7ba; v = 1\x7d\"".toList =
    [.binding "v".toList (some "Integer".toList)] := by
  decide +kernel

end GroovyShell
