/-
  GroovyShell/Proofs/CompoundReceivers.lean
  =========================================
  **The members of a compound expression.**

  Of an expression of several tokens only the first and the last decide its type,
  so whether members are offered for a chain depends on its first piece and its
  last one, whatever stands between them.  A chain that is no literal has a type
  exactly when it begins with one literal and ends with another of the same sort,
  such as a list with an index behind it.
-/
import GroovyShell.Proofs.LiteralMembers

namespace GroovyShell

/-! ### The ends of a chain -/

/-- The tokens begin with one piece of an expression and end with another. -/
def BetweenPieces (tokens : List Token) : Prop :=
  ∃ first between last, tokens = first ++ (between ++ last) ∧ (∃ front, Piece front first) ∧
    ∃ back, Piece back last

theorem BetweenPieces.of_append {front tokens : List Token} {back : Option Bracket}
    (hfront : (∃ only, Piece only front) ∨ BetweenPieces front) (between : List Token)
    (hback : Piece back tokens) : BetweenPieces (front ++ (between ++ tokens)) := by
  obtain ⟨only, honly⟩ | ⟨first, middle, last, rfl, hfirst, -⟩ := hfront
  · exact ⟨front, between, tokens, rfl, ⟨only, honly⟩, ⟨back, hback⟩⟩
  · refine ⟨first, middle ++ last ++ between, tokens, ?_, hfirst, ⟨back, hback⟩⟩
    simp only [List.append_assoc]

/-- A chain is one piece, or begins with one piece and ends with another. -/
theorem AccessChain.ends {group : Option Bracket} {chain : List Token}
    (h : AccessChain group chain) : (∃ only, Piece only chain) ∨ BetweenPieces chain := by
  induction h with
  | piece h => exact .inl ⟨_, h⟩
  | @member other chain tokens dot _ _ htokens ih =>
    exact .inr (.of_append ih [dot] htokens)
  | @applied chain tokens bracket _ htokens _ ih =>
    exact .inr (.of_append ih [] (.group htokens))

/-- `LiteralEnds tokens`: the tokens begin with an interpolated string and end with
    another, or begin with a group in square brackets and end with another group
    that a square bracket closes. -/
inductive LiteralEnds : List Token → Prop
  | strings {first between last : List Token} : InterpolatedString first →
      InterpolatedString last → LiteralEnds (first ++ (between ++ last))
  | lists {first between last : List Token} {bracket : Bracket} : BracketGroup .square first →
      BracketGroup bracket last → (∀ t ∈ last.getLast?, t.kind = .closing .square) →
        LiteralEnds (first ++ (between ++ last))

/-! ### What the ends of a piece tell -/

section

variable {group : Option Bracket} {tokens : List Token} {t : Token}

theorem Piece.of_head (h : Piece group tokens) (ht : tokens.head? = some t) :
    (t.kind = .stringStart → InterpolatedString tokens) ∧
      ∀ bracket, t.kind = .opening bracket → BracketGroup bracket tokens := by
  cases h with
  | single halone =>
    obtain rfl := Option.some.inj ht
    constructor
    · intro hkind
      simp [hkind, TokenKind.standsAlone] at halone
    · intro bracket hkind
      simp [hkind, TokenKind.standsAlone] at halone
  | interpolated h =>
    have hopening := h.kind_of_head ht
    constructor
    · intro _
      exact h
    · intro bracket hkind
      simp [hopening] at hkind
  | @group other _ h =>
    have hopening := h.kind_of_head ht
    constructor
    · intro hkind
      simp [hopening] at hkind
    · intro bracket hkind
      obtain rfl : other = bracket := by simpa [hopening] using hkind
      exact h

theorem Piece.of_last (h : Piece group tokens) (ht : tokens.getLast? = some t) :
    (t.kind = .stringEnd → InterpolatedString tokens) ∧
      (t.kind.closes = true → ∃ bracket, BracketGroup bracket tokens) := by
  cases h with
  | @single only halone =>
    obtain rfl : only = t := by simpa using ht
    constructor
    · intro hkind
      simp [hkind, TokenKind.standsAlone] at halone
    · intro hcloses
      obtain ⟨bracket, hkind⟩ := TokenKind.closes_iff.mp hcloses
      simp [hkind, TokenKind.standsAlone] at halone
  | interpolated h =>
    have hend : t.kind = .stringEnd := by simpa using h.closes_of_last ht
    constructor
    · intro _
      exact h
    · intro hcloses
      simp [hend, TokenKind.closes] at hcloses
  | @group bracket _ h =>
    have hclosing := h.closes_of_last ht
    constructor
    · intro hkind
      simp [hkind, TokenKind.closes] at hclosing
    · intro _
      exact ⟨bracket, h⟩

theorem isLiteral_interpolated (h : InterpolatedString tokens) :
    IsLiteral (tokens.map Token.kind) := by
  obtain ⟨opening, inner, closing, rfl, hopening, hclosing, hclosed⟩ := h.parts
  have hend : closing.kind = .stringEnd := by simpa using hclosing
  rw [List.map_append, List.map_singleton, hend] at hclosed
  rw [List.map_cons, List.map_append, List.map_singleton, hopening, hend]
  exact .interpolated hclosed

theorem IsLiteral.closed {kinds : List TokenKind} (h : IsLiteral (.opening .square :: kinds)) :
    closesAtEnd TokenKind.opens TokenKind.closes 1 kinds = true := by
  cases h with
  | bracketed h => exact h

theorem isLiteral_bracketed (h : BracketGroup .square tokens) (ht : tokens.getLast? = some t)
    (hkind : t.kind = .closing .square) : IsLiteral (tokens.map Token.kind) := by
  obtain ⟨opening, inner, closing, rfl, hopening, -, hclosed⟩ := h.parts
  obtain rfl : closing = t := by
    rw [← List.cons_append, List.getLast?_concat] at ht
    exact Option.some.inj ht
  rw [List.map_append, List.map_singleton, hkind] at hclosed
  rw [List.map_cons, List.map_append, List.map_singleton, hopening, hkind]
  exact .bracketed hclosed

end

/-! ### The type of a compound expression -/

theorem typeOfTokens_isSome {first last : TokenKind} {tokens : List Token} :
    (typeOfTokens first last tokens).isSome = true ↔
      first = .stringStart ∧ last = .stringEnd ∨
        first = .opening .square ∧ last = .closing .square := by
  unfold typeOfTokens
  split <;> simp_all

theorem receiverType_several {s : Session} {tokens : List Token} {first last : Token}
    (hlong : 1 < tokens.length) (hfirst : tokens.head? = some first)
    (hlast : tokens.getLast? = some last) :
    receiverType s tokens = typeOfTokens first.kind last.kind tokens := by
  rcases tokens with _ | ⟨opening, _ | ⟨second, rest⟩⟩
  · simp at hlong
  · simp at hlong
  · obtain rfl := Option.some.inj hfirst
    rw [List.getLast?_cons_cons, List.getLast?_eq_some_getLast (by simp), Option.some.injEq] at hlast
    rw [receiverType, hlast]

section

variable {tokens : List Token} {first last : Token}

theorem LiteralEnds.kinds (h : LiteralEnds tokens) (hfirst : tokens.head? = some first)
    (hlast : tokens.getLast? = some last) :
    first.kind = .stringStart ∧ last.kind = .stringEnd ∨
      first.kind = .opening .square ∧ last.kind = .closing .square := by
  cases h with
  | strings hfront hback =>
    rw [List.head?_append_of_ne_nil _ (Piece.interpolated hfront).ne_nil] at hfirst
    rw [← List.append_assoc,
      List.getLast?_append_of_ne_nil _ (Piece.interpolated hback).ne_nil] at hlast
    exact .inl ⟨hfront.kind_of_head hfirst, by simpa using hback.closes_of_last hlast⟩
  | lists hfront hback hclosing =>
    rw [List.head?_append_of_ne_nil _ (Piece.group hfront).ne_nil] at hfirst
    rw [← List.append_assoc, List.getLast?_append_of_ne_nil _ (Piece.group hback).ne_nil] at hlast
    exact .inr ⟨hfront.kind_of_head hfirst, hclosing last hlast⟩

/-- The first and the last token of a chain that is no literal belong to two pieces. -/
theorem AccessChain.literalEnds {group : Option Bracket} (h : AccessChain group tokens)
    (hliteral : ¬ IsLiteral (tokens.map Token.kind)) (hfirst : tokens.head? = some first)
    (hlast : tokens.getLast? = some last)
    (hkinds : first.kind = .stringStart ∧ last.kind = .stringEnd ∨
      first.kind = .opening .square ∧ last.kind = .closing .square) : LiteralEnds tokens := by
  obtain ⟨only, hpiece⟩ | ⟨front, between, back, rfl, ⟨_, hfront⟩, ⟨_, hback⟩⟩ := h.ends
  · obtain ⟨hstart, -⟩ | ⟨hopening, hclosing⟩ := hkinds
    · exact absurd (isLiteral_interpolated ((hpiece.of_head hfirst).1 hstart)) hliteral
    · have hgroup := (hpiece.of_head hfirst).2 _ hopening
      exact absurd (isLiteral_bracketed hgroup hlast hclosing) hliteral
  · rw [List.head?_append_of_ne_nil _ hfront.ne_nil] at hfirst
    rw [← List.append_assoc, List.getLast?_append_of_ne_nil _ hback.ne_nil] at hlast
    obtain ⟨hstart, hend⟩ | ⟨hopening, hclosing⟩ := hkinds
    · exact .strings ((hfront.of_head hfirst).1 hstart) ((hback.of_last hlast).1 hend)
    · obtain ⟨bracket, hgroup⟩ := (hback.of_last hlast).2 (by rw [hclosing]; rfl)
      apply LiteralEnds.lists ((hfront.of_head hfirst).2 _ hopening) hgroup
      intro t ht
      obtain rfl : last = t := Option.some.inj (hlast.symm.trans ht)
      exact hclosing

end

/-- An expression of several tokens that is no literal has a type exactly when it begins
    with one literal and ends with another of the same sort. -/
theorem receiverType_compound {s : Session} {tokens : List Token} (h : IsReceiver tokens)
    (hlong : 1 < tokens.length) (hliteral : ¬ IsLiteral (tokens.map Token.kind)) :
    (receiverType s tokens).isSome = true ↔ LiteralEnds tokens := by
  have hnonempty : tokens ≠ [] := List.ne_nil_of_length_pos (by omega)
  obtain ⟨first, hfirst⟩ := Option.isSome_iff_exists.mp (List.isSome_head?.mpr hnonempty)
  obtain ⟨last, hlast⟩ := Option.isSome_iff_exists.mp (List.getLast?_isSome.mpr hnonempty)
  rw [receiverType_several hlong hfirst hlast, typeOfTokens_isSome]
  constructor
  · intro hkinds
    cases h with
    | nothing => simp at hnonempty
    | chain hchain => exact hchain.literalEnds hliteral hfirst hlast hkinds
    | behindDot hdot _ =>
      obtain rfl := Option.some.inj hfirst
      obtain ⟨hstart, -⟩ | ⟨hopening, -⟩ := hkinds
      · simp [hstart, TokenKind.isDot] at hdot
      · simp [hopening, TokenKind.isDot] at hdot
  · intro hends
    exact hends.kinds hfirst hlast

/-- Whatever stands before the dot of a stream is an expression that the walk can find. -/
theorem isReceiver_receiver (stream : TokenStream) : IsReceiver stream.receiver := by
  unfold TokenStream.receiver
  split
  · exact isReceiver_receiverBack _
  · exact .nothing

/-- **The members of an expression of several tokens.**  No members are offered for it,
    unless it is a literal or looks like one from its two ends: then its type is taken
    to be that of a literal, whatever stands between them. -/
theorem compound_members (s : Session) (stream : TokenStream) (present : Nat)
    (hlong : 1 < stream.receiver.length)
    (hliteral : ¬ IsLiteral (stream.receiver.map Token.kind)) :
    ((receiverType s stream.receiver).isSome = true ↔ LiteralEnds stream.receiver) ∧
      (¬ LiteralEnds stream.receiver → completeMembers s stream present = .none) := by
  have htype : (receiverType s stream.receiver).isSome = true ↔ LiteralEnds stream.receiver :=
    receiverType_compound (isReceiver_receiver stream) hlong hliteral
  constructor
  · exact htype
  · intro hends
    have hnone : receiverType s stream.receiver = none := by
      rw [← Option.not_isSome_iff_eq_none, htype]
      exact hends
    rw [completeMembers, hnone]

/-- An element of a list is offered the members of a list. -/
theorem compound_members_indexed :
    let chain : List Token :=
      [ ⟨.opening .square, "[".toList, ⟨1, 1⟩⟩, ⟨.number, "1".toList, ⟨1, 2⟩⟩,
        ⟨.comma, ",".toList, ⟨1, 3⟩⟩, ⟨.number, "2".toList, ⟨1, 5⟩⟩,
        ⟨.closing .square, "]".toList, ⟨1, 6⟩⟩, ⟨.opening .square, "[".toList, ⟨1, 7⟩⟩,
        ⟨.number, "0".toList, ⟨1, 8⟩⟩, ⟨.closing .square, "]".toList, ⟨1, 9⟩⟩ ]
    let stream : TokenStream :=
      ⟨⟨.name, "si".toList, ⟨1, 11⟩⟩, ⟨.dot .plain, ".".toList, ⟨1, 10⟩⟩ :: chain.reverse⟩
    tokensOf "[1, 2][0].si".toList = .ok stream.tokens ∧ stream.receiver = chain ∧
      ¬ IsLiteral (chain.map Token.kind) ∧ LiteralEnds chain ∧
        (completeMembers .new stream 0).candidates = ["size()".toList] := by
  intro chain stream
  have hlist : BracketGroup .square (chain.take 5) := .intro rfl rfl (by decide)
  have hindex : BracketGroup .square (chain.drop 5) := .intro rfl rfl (by decide)
  have hchain : AccessChain (some .square) chain :=
    (AccessChain.piece (.group hlist)).applied hindex (by decide)
  have hfound : (receiverBack ([] ++ chain).reverse).reverse = chain := hchain.found (by simp)
  have hreceiver : stream.receiver = chain := hfound
  have hliteral : ¬ IsLiteral (chain.map Token.kind) := by
    intro h
    exact absurd h.closed (by decide)
  obtain ⟨htype, -⟩ := compound_members .new stream 0 (by rw [hreceiver]; decide)
    (by rwa [hreceiver])
  rw [hreceiver] at htype
  refine ⟨by decide +kernel, hreceiver, hliteral, htype.mp rfl, ?_⟩
  simp only [completeMembers, hreceiver]
  decide +kernel

end GroovyShell
