/-
  GroovyShell/Proofs/ReceiverChain.lean
  =====================================
  **The expression before a dot.**

  A member is selected from a chain: names, literals and groups joined by dots,
  with groups applied to what stands directly before them.  The walk back from
  the dot finds exactly the chain.  What carries the proof is that the walk, sent
  over the tokens of a chain, comes out at its first token with the one question
  left that it asks about any piece: whether a dot, or something the piece is
  applied to, stands before it.
-/
import GroovyShell.Proofs.Enclosures
import Mathlib.Data.List.Basic

namespace GroovyShell

/-! ### Pieces -/

/-- Tokens that stand for an object by themselves. -/
def TokenKind.standsAlone : TokenKind → Bool
  | .name | .number | .string
  | .keyword .kwThis | .keyword .kwSuper | .keyword .kwNull => true
  | _ => false

/-- Whether a group in these brackets is applied to the token before it: arguments
    and an index to a name or another group, a closure to a name or a call. -/
def Bracket.appliesTo (bracket : Bracket) (before : Token) : Bool :=
  match before.kind with
  | .name | .closing .paren => true
  | .closing .square => bracket ≠ .brace
  | _ => false

/-- `Piece group tokens`: one piece of an expression, and the brackets it stands in if
    it is a group. -/
inductive Piece : Option Bracket → List Token → Prop
  | single {t : Token} : t.kind.standsAlone = true → Piece none [t]
  | interpolated {tokens : List Token} : InterpolatedString tokens → Piece none tokens
  | group {bracket : Bracket} {tokens : List Token} : BracketGroup bracket tokens →
      Piece (some bracket) tokens

theorem Bracket.isDot_of_appliesTo {bracket : Bracket} {t : Token}
    (h : bracket.appliesTo t = true) : t.kind.isDot = false := by
  cases hkind : t.kind with
  | dot access => simp [appliesTo, hkind] at h
  | _ => rfl

theorem Piece.ne_nil {group : Option Bracket} {tokens : List Token} (h : Piece group tokens) :
    tokens ≠ [] := by
  cases h with
  | single _ => simp
  | interpolated h =>
    obtain ⟨opening, rest, rfl, -⟩ := h.head
    simp
  | group h =>
    obtain ⟨opening, rest, rfl, -⟩ := h.head
    simp

theorem Piece.bracketGroup {bracket : Bracket} {tokens : List Token}
    (h : Piece (some bracket) tokens) : BracketGroup bracket tokens := by
  cases h with
  | group h => exact h

/-! ### One operand of the walk -/

/-- An operand of the length of some tokens is those tokens. -/
theorem Operand.cut_append (grouped : Bool) (tokens before : List Token) :
    Operand.cut grouped tokens.length (tokens ++ before) = ⟨tokens, before, grouped⟩ := by
  rw [cut, List.take_left, List.drop_left]

/-- The walk takes a piece for one operand, whatever stands before it. -/
theorem Piece.operand {group : Option Bracket} {tokens : List Token} (h : Piece group tokens)
    (before : List Token) :
    GroovyShell.operand (tokens.reverse ++ before) =
      some ⟨tokens.reverse, before, group.isSome⟩ := by
  cases h with
  | @single t halone =>
    rw [List.reverse_singleton, List.singleton_append]
    unfold TokenKind.standsAlone at halone
    split at halone
    all_goals first
      | contradiction
      | rename_i hkind
        simp [GroovyShell.operand, hkind]
  | interpolated h =>
    obtain ⟨closing, rest, hsplit, hcloses⟩ := h.reverse_head before
    have hkind : closing.kind = .stringEnd := by simpa using hcloses
    have hlength : interpolatedLength 0 (tokens.reverse ++ before) = some tokens.reverse.length := by
      rw [interpolatedLength_eq, h.length_back TokenKind.stringStart_apart, List.length_reverse]
    have hcut := Operand.cut_append false tokens.reverse before
    rw [hsplit] at hlength hcut ⊢
    simp only [GroovyShell.operand, hkind, hlength, Option.map_some, hcut]
    rfl
  | group h =>
    obtain ⟨closing, rest, hsplit, hcloses⟩ := h.reverse_head before
    obtain ⟨bracket, hkind⟩ := TokenKind.closes_iff.mp hcloses
    have hlength : groupLength 0 (tokens.reverse ++ before) = some tokens.reverse.length := by
      rw [groupLength_eq, h.length_back TokenKind.opens_apart, List.length_reverse]
    have hcut := Operand.cut_append true tokens.reverse before
    rw [hsplit] at hlength hcut ⊢
    simp only [GroovyShell.operand, hkind, hlength, Option.map_some, hcut]
    rfl

/-- Every operand of the walk is a piece. -/
theorem piece_of_operand {tokens : List Token} {o : Operand} (h : operand tokens = some o) :
    tokens = o.tokens ++ o.before ∧ ∃ group, Piece group o.tokens.reverse := by
  cases tokens with
  | nil => simp [operand] at h
  | cons t rest =>
    simp only [operand] at h
    split at h
    · rename_i bracket hkind
      obtain ⟨n, hn, rfl⟩ := Option.map_eq_some_iff.mp h
      have hcloses : t.kind.closes = true := by rw [hkind]; rfl
      rw [groupLength_eq] at hn
      obtain ⟨first, henclosed⟩ := Enclosure.of_length_back TokenKind.opens_apart hcloses hn
      refine ⟨(List.take_append_drop n _).symm, ?_⟩
      obtain ⟨bracket, rfl⟩ := TokenKind.opens_iff.mp henclosed.opens_first
      exact ⟨some bracket, .group henclosed⟩
    · rename_i hkind
      obtain ⟨n, hn, rfl⟩ := Option.map_eq_some_iff.mp h
      have hcloses : decide (t.kind = .stringEnd) = true := by simp [hkind]
      rw [interpolatedLength_eq] at hn
      obtain ⟨first, henclosed⟩ :=
        Enclosure.of_length_back TokenKind.stringStart_apart hcloses hn
      refine ⟨(List.take_append_drop n _).symm, ?_⟩
      obtain rfl : first = .stringStart := by simpa using henclosed.opens_first
      exact ⟨none, .interpolated henclosed⟩
    all_goals first
      | contradiction
      | rename_i hkind
        obtain rfl := Option.some.inj h
        exact ⟨rfl, none, .single (by rw [hkind]; rfl)⟩

/-- What the walk takes behind an operand: whatever a dot joins to it, or what it is
    applied to. -/
def walkOn (applied : Token → Bool) : List Token → List Token
  | [] => []
  | t :: rest =>
    if t.kind.isDot then t :: receiverBack rest
    else if applied t then receiverBack (t :: rest)
    else []

theorem receiverBack_none {tokens : List Token} (h : operand tokens = none) :
    receiverBack tokens = [] := by
  rw [receiverBack]
  split
  · rfl
  · rename_i o hsome
    rw [h] at hsome
    simp at hsome

theorem receiverBack_some {tokens : List Token} {o : Operand} (h : operand tokens = some o) :
    receiverBack tokens = o.tokens ++ walkOn o.isAppliedTo o.before := by
  rw [receiverBack]
  split
  · rename_i hnone
    rw [hnone] at h
    simp at h
  · rename_i o' hsome
    obtain rfl : o' = o := Option.some.inj (hsome.symm.trans h)
    split
    · rename_i hbefore
      rw [hbefore, walkOn, List.append_nil]
    · rename_i before rest hbefore
      rw [hbefore, walkOn]
      split
      · rfl
      · split
        · rfl
        · rw [List.append_nil]

/-- A piece is applied to a token before it if it is a group that is. -/
theorem Piece.isAppliedTo {group : Option Bracket} {tokens : List Token} (h : Piece group tokens)
    (before : List Token) :
    Operand.isAppliedTo ⟨tokens.reverse, before, group.isSome⟩ =
      fun t => group.any (·.appliesTo t) := by
  funext t
  cases h with
  | single _ => rfl
  | interpolated _ => rfl
  | @group bracket _ h =>
    obtain ⟨opening, rest, rfl, hopening⟩ := h.head
    cases hkind : t.kind with
    | closing other =>
      cases other <;> simp [Operand.isAppliedTo, Bracket.appliesTo, hkind, hopening]
    | _ => simp [Operand.isAppliedTo, Bracket.appliesTo, hkind]

theorem isAppliedTo_of_operand {tokens : List Token} {o : Operand} (h : operand tokens = some o)
    {group : Option Bracket} (hpiece : Piece group o.tokens.reverse) (t : Token) :
    o.isAppliedTo t = group.any (·.appliesTo t) := by
  have hsame := hpiece.operand o.before
  rw [List.reverse_reverse, ← (piece_of_operand h).1, h, Option.some.injEq] at hsame
  have happlied := congrFun (hpiece.isAppliedTo o.before) t
  rwa [List.reverse_reverse, ← hsame] at happlied

theorem Piece.receiverBack {group : Option Bracket} {tokens : List Token} (h : Piece group tokens)
    (before : List Token) :
    GroovyShell.receiverBack (tokens.reverse ++ before) =
      tokens.reverse ++ walkOn (fun t => group.any (·.appliesTo t)) before := by
  rw [receiverBack_some (h.operand before), h.isAppliedTo]

/-! ### Chains -/

/-- `AccessChain group chain`: pieces joined by dots, with groups applied to the token
    directly before them.  So between two dots stand a single token, an interpolated
    string, or groups, of which the first may have a name before it.  `group` is the
    brackets of the first piece if that is a group. -/
inductive AccessChain : Option Bracket → List Token → Prop
  | piece {group : Option Bracket} {tokens : List Token} : Piece group tokens →
      AccessChain group tokens
  | member {group other : Option Bracket} {chain tokens : List Token} {dot : Token} :
      AccessChain group chain → dot.kind.isDot = true → Piece other tokens →
        AccessChain group (chain ++ dot :: tokens)
  | applied {group : Option Bracket} {chain tokens : List Token} {bracket : Bracket} :
      AccessChain group chain → BracketGroup bracket tokens →
        (∀ last ∈ chain.getLast?, bracket.appliesTo last = true) →
          AccessChain group (chain ++ tokens)

theorem AccessChain.ne_nil {group : Option Bracket} {chain : List Token}
    (h : AccessChain group chain) : chain ≠ [] := by
  induction h with
  | piece h => exact h.ne_nil
  | member _ _ _ _ => simp
  | applied _ _ _ ih => simp [ih]

/-- The walk goes over a chain and asks behind it what it asks behind its first piece. -/
theorem AccessChain.receiverBack {group : Option Bracket} {chain : List Token}
    (h : AccessChain group chain) (before : List Token) :
    GroovyShell.receiverBack (chain.reverse ++ before) =
      chain.reverse ++ walkOn (fun t => group.any (·.appliesTo t)) before := by
  induction h generalizing before with
  | piece h => exact h.receiverBack before
  | @member other chain tokens dot _ hdot htokens ih =>
    have hreverse : (chain ++ dot :: tokens).reverse ++ before =
        tokens.reverse ++ (dot :: (chain.reverse ++ before)) := by
      simp
    rw [hreverse, htokens.receiverBack, walkOn, if_pos hdot, ih]
    simp
  | @applied chain tokens bracket hchain htokens hlast ih =>
    obtain ⟨front, last, rfl⟩ := (List.eq_nil_or_concat' chain).resolve_left hchain.ne_nil
    have happlies : bracket.appliesTo last = true := hlast last List.getLast?_concat
    -- what a group is applied to is no dot, and the walk goes on there
    have hreverse : (front ++ [last]).reverse ++ before = last :: (front.reverse ++ before) := by
      simp
    have hwalk : walkOn (fun t => (some bracket).any (·.appliesTo t))
        ((front ++ [last]).reverse ++ before) =
          GroovyShell.receiverBack ((front ++ [last]).reverse ++ before) := by
      rw [hreverse, walkOn, if_neg (by simp [Bracket.isDot_of_appliesTo happlies])]
      exact if_pos happlies
    rw [List.reverse_append, List.append_assoc, (Piece.group htokens).receiverBack, hwalk, ih,
      List.append_assoc]

/-! ### The expression before the dot -/

theorem TokenStream.beforeDot_dot {dot : Token} (hdot : dot.kind.isDot = true)
    (earlier : List Token) : beforeDot ⟨dot, earlier⟩ = some earlier :=
  if_pos hdot

theorem TokenStream.beforeDot_word {dot word : Token} (hdot : dot.kind.isDot = true)
    (hword : word.kind = .name) (earlier : List Token) :
    beforeDot ⟨word, dot :: earlier⟩ = some earlier := by
  have hnodot : TokenKind.name.isDot = false := rfl
  simp [beforeDot, hword, hdot, hnodot]

/-- The walk back from the end of a chain finds it, as long as the chain does not go on. -/
theorem AccessChain.found {group : Option Bracket} {chain : List Token}
    (h : AccessChain group chain) {before : List Token}
    (hbefore : ∀ t ∈ before.getLast?,
      t.kind.isDot = false ∧ ∀ bracket ∈ group, bracket.appliesTo t = false) :
    (GroovyShell.receiverBack (before ++ chain).reverse).reverse = chain := by
  have hends : walkOn (fun t => group.any (·.appliesTo t)) before.reverse = [] := by
    cases hreverse : before.reverse with
    | nil => rfl
    | cons t rest =>
      have hlast : before.getLast? = some t := by
        rw [List.getLast?_eq_head?_reverse, hreverse, List.head?_cons]
      obtain ⟨hnodot, hfree⟩ := hbefore t hlast
      have hnone : group.any (·.appliesTo t) = false := by
        cases group with
        | none => rfl
        | some bracket => exact hfree bracket rfl
      simp [walkOn, hnodot, hnone]
  rw [List.reverse_append, h.receiverBack, hends, List.append_nil, List.reverse_reverse]

/-- **The expression before a dot is exactly the chain that ends there**, whatever stands
    before the chain, as long as the chain does not go on. -/
theorem receiver_of_chain {group : Option Bracket} {chain : List Token}
    (hchain : AccessChain group chain) {dot : Token} (hdot : dot.kind.isDot = true)
    {word : Option Token} (hword : ∀ w ∈ word, w.kind = .name) {before : List Token}
    (hbefore : ∀ t ∈ before.getLast?,
      t.kind.isDot = false ∧ ∀ bracket ∈ group, bracket.appliesTo t = false) :
    (TokenStream.ofTokens (before ++ chain ++ [dot] ++ word.toList)).map TokenStream.receiver =
      some chain := by
  obtain ⟨stream, hstream, hearlier⟩ : ∃ stream,
      TokenStream.ofTokens (before ++ chain ++ [dot] ++ word.toList) = some stream ∧
        stream.beforeDot = some (before ++ chain).reverse := by
    cases word with
    | none =>
      refine ⟨⟨dot, (before ++ chain).reverse⟩, ?_, TokenStream.beforeDot_dot hdot _⟩
      simp [TokenStream.ofTokens]
    | some w =>
      refine ⟨⟨w, dot :: (before ++ chain).reverse⟩, ?_,
        TokenStream.beforeDot_word hdot (hword w rfl) _⟩
      simp [TokenStream.ofTokens]
  rw [hstream, Option.map_some, TokenStream.receiver, hearlier]
  exact congrArg some (hchain.found hbefore)

/-- Behind `x = `, the expression `[f(1)][0].g{it}` is found whole. -/
theorem receiver_of_chain_indexed :
    let token (kind : TokenKind) (text : String) : Token := ⟨kind, text.toList, .start⟩
    let before := [token .name "x", token .operator "="]
    let literal := [ token (.opening .square) "[", token .name "f", token (.opening .paren) "(",
      token .number "1", token (.closing .paren) ")", token (.closing .square) "]" ]
    let index := [token (.opening .square) "[", token .number "0", token (.closing .square) "]"]
    let member := [token .name "g"]
    let closure := [token (.opening .brace) "\x7b", token .name "it", token (.closing .brace) "\x7d"]
    let chain := literal ++ index ++ token (.dot .plain) "." :: member ++ closure
    AccessChain (some .square) chain ∧
      (TokenStream.ofTokens (before ++ chain ++ [token (.dot .safe) "?."] ++
        (some (token .name "to")).toList)).map TokenStream.receiver = some chain := by
  intro token before literal index member closure chain
  have hliteral : BracketGroup .square literal := .intro rfl rfl (by decide)
  have hindex : BracketGroup .square index := .intro rfl rfl (by decide)
  have hclosure : BracketGroup .brace closure := .intro rfl rfl (by decide)
  have hmember : Piece none member := .single rfl
  have hchain : AccessChain (some .square) chain := by
    apply AccessChain.applied _ hclosure (by decide)
    apply AccessChain.member _ rfl hmember
    exact (AccessChain.piece (.group hliteral)).applied hindex (by decide)
  refine ⟨hchain, receiver_of_chain hchain rfl ?_ ?_⟩
  · decide
  · decide

/-! ### Every expression before a dot -/

/-- What the walk can find: nothing, a chain, or a chain behind a dot that nothing
    usable stands before. -/
inductive IsReceiver : List Token → Prop
  | nothing : IsReceiver []
  | chain {group : Option Bracket} {chain : List Token} : AccessChain group chain →
      IsReceiver chain
  | behindDot {group : Option Bracket} {chain : List Token} {dot : Token} :
      dot.kind.isDot = true → AccessChain group chain → IsReceiver (dot :: chain)

/-- If the walk finds anything, it begins with the token nearest to the dot. -/
theorem receiverBack_head (t : Token) (rest : List Token) :
    receiverBack (t :: rest) = [] ∨ ∃ more, receiverBack (t :: rest) = t :: more := by
  cases hoperand : operand (t :: rest) with
  | none => exact .inl (receiverBack_none hoperand)
  | some o =>
    right
    obtain ⟨htokens, group, hpiece⟩ := piece_of_operand hoperand
    have hnonempty : o.tokens ≠ [] := by simpa using hpiece.ne_nil
    obtain ⟨first, others, hfirst⟩ := List.exists_cons_of_ne_nil hnonempty
    rw [hfirst, List.cons_append, List.cons.injEq] at htokens
    exact ⟨_, by rw [receiverBack_some hoperand, hfirst, htokens.1, List.cons_append]⟩

/-- Whatever the walk finds is a chain, with or without a dot before it. -/
theorem isReceiver_receiverBack (tokens : List Token) :
    IsReceiver (receiverBack tokens).reverse := by
  fun_induction receiverBack tokens with
  | case1 tokens hoperand => exact .nothing
  | case2 tokens o hoperand hbefore =>
    obtain ⟨-, group, hpiece⟩ := piece_of_operand hoperand
    exact .chain (.piece hpiece)
  | case3 tokens o hoperand dot rest hbefore hdot ih =>
    obtain ⟨-, group, hpiece⟩ := piece_of_operand hoperand
    rw [List.reverse_append, List.reverse_cons, List.append_assoc, List.singleton_append]
    generalize (receiverBack rest).reverse = found at ih
    cases ih with
    | nothing => exact .behindDot hdot (.piece hpiece)
    | chain hchain => exact .chain (hchain.member hdot hpiece)
    | behindDot hfirst hchain => exact .behindDot hfirst (hchain.member hdot hpiece)
  | case4 tokens o hoperand before rest hbefore hnodot happlied ih =>
    obtain ⟨-, group, hpiece⟩ := piece_of_operand hoperand
    rw [isAppliedTo_of_operand hoperand hpiece] at happlied
    -- the walk goes on at the token the group is applied to: it finds that one or nothing
    obtain ⟨bracket, rfl, happlies⟩ := (Option.any_eq_true _ _).mp happlied
    have hlast : ∀ last ∈ (receiverBack (before :: rest)).reverse.getLast?, last = before := by
      obtain hnil | ⟨more, hmore⟩ := receiverBack_head before rest
      · simp [hnil]
      · simp [hmore]
    rw [List.reverse_append]
    generalize (receiverBack (before :: rest)).reverse = found at ih hlast
    have hgroup := hpiece.bracketGroup
    cases ih with
    | nothing => exact .chain (.piece hpiece)
    | chain hchain =>
      apply IsReceiver.chain
      apply hchain.applied hgroup
      intro last h
      rw [hlast last h]
      exact happlies
    | behindDot hfirst hchain =>
      apply IsReceiver.behindDot hfirst
      apply hchain.applied hgroup
      intro last h
      rw [hlast last (List.mem_getLast?_cons h)]
      exact happlies
  | case5 tokens o hoperand before rest hbefore hnodot happlied =>
    obtain ⟨-, group, hpiece⟩ := piece_of_operand hoperand
    exact .chain (.piece hpiece)

end GroovyShell
