/-
  GroovyShell/Proofs/Enclosures.lean
  ==================================
  **What brackets leave open, and what they enclose.**

  Brackets are counted in two ways: as opened minus closed, and by the walk over a
  statement, for which a bracket too many closes nothing.  Both agree as long as
  no beginning of the tokens closes more than it opens.

  The walk back over an expression knows two kinds of enclosure: a group in
  brackets, where brackets of all kinds count together, and an interpolated
  string from its start to its end.  Both are tokens that close everything they
  opened with the last of them and not before, and from there the walk leads back
  to the first, whatever stands before it.
-/
import GroovyShell.Completion.Stream
import GroovyShell.Session.Declaration
import GroovyShell.Statement
import Mathlib.Data.List.Induction

namespace GroovyShell

/-! ### What is left open -/

theorem bracketBalance_append (tokens more : List Token) :
    bracketBalance (tokens ++ more) = bracketBalance tokens + bracketBalance more := by
  induction tokens with
  | nil => simp [bracketBalance]
  | cons t tokens ih => rw [List.cons_append, bracketBalance, bracketBalance, ih, Int.add_assoc]

theorem bracketBalance_eq_zero {tokens : List Token} (h : ∀ t ∈ tokens, t.bracketChange = 0) :
    bracketBalance tokens = 0 := by
  induction tokens with
  | nil => rfl
  | cons t tokens ih =>
    rw [bracketBalance, h t (by simp), ih fun t ht => h t (List.mem_cons_of_mem _ ht)]
    rfl

/-- No beginning of the tokens closes more brackets than it opens. -/
def BracketsNest (tokens : List Token) : Prop :=
  ∀ front, front <+: tokens → 0 ≤ bracketBalance front

theorem BracketsNest.of_prefix {front tokens : List Token} (h : BracketsNest tokens)
    (hfront : front <+: tokens) : BracketsNest front :=
  fun first hfirst => h first (hfirst.trans hfront)

/-- The depth of the walk over a statement is what the brackets leave open. -/
theorem BracketsNest.depth {tokens : List Token} (h : BracketsNest tokens) :
    (tokens.foldl depthAfter 0 : Nat) = bracketBalance tokens := by
  induction tokens using List.reverseRecOn with
  | nil => rfl
  | append_singleton tokens t ih =>
    have hfront := ih (h.of_prefix (List.prefix_append tokens [t]))
    have hall := h _ (List.prefix_refl _)
    rw [bracketBalance_append, ← hfront] at hall ⊢
    rw [List.foldl_append, List.foldl_cons, List.foldl_nil]
    simp only [bracketBalance, depthAfter, Token.bracketChange] at hall ⊢
    cases hkind : t.kind with
    | opening bracket => simp
    | closing bracket =>
      simp only [hkind] at hall ⊢
      omega
    | _ => simp

/-! ### Depth over kinds of tokens -/

/-- How deep a token of a kind leads from some depth. -/
def depthBehind (opens closes : TokenKind → Bool) (depth : Nat) (kind : TokenKind) : Nat :=
  if opens kind then depth + 1 else if closes kind then depth - 1 else depth

/-- Whether some tokens close everything that is open, to the given depth, with the
    last of them and not before. -/
def closesAtEnd (opens closes : TokenKind → Bool) : Nat → List TokenKind → Bool
  | depth, [] => depth = 0
  | depth, kind :: rest =>
    0 < depth && closesAtEnd opens closes (depthBehind opens closes depth kind) rest

/-- Number of tokens back to the one that opens what the first token closes. -/
def enclosureLength (opens closes : TokenKind → Bool) : Nat → List TokenKind → Option Nat
  | _, [] => none
  | depth, kind :: rest =>
    if closes kind then (enclosureLength opens closes (depth + 1) rest).map (· + 1)
    else if opens kind then
      if depth ≤ 1 then some 1 else (enclosureLength opens closes (depth - 1) rest).map (· + 1)
    else (enclosureLength opens closes depth rest).map (· + 1)

theorem groupLength_eq (depth : Nat) (tokens : List Token) :
    groupLength depth tokens =
      enclosureLength TokenKind.opens TokenKind.closes depth (tokens.map Token.kind) := by
  induction tokens generalizing depth with
  | nil => rfl
  | cons t rest ih =>
    simp only [groupLength, List.map_cons, enclosureLength, ih]
    cases t.kind <;> simp [TokenKind.opens, TokenKind.closes]

theorem interpolatedLength_eq (depth : Nat) (tokens : List Token) :
    interpolatedLength depth tokens =
      enclosureLength (· = .stringStart) (· = .stringEnd) depth (tokens.map Token.kind) := by
  induction tokens generalizing depth with
  | nil => rfl
  | cons t rest ih =>
    simp only [interpolatedLength, List.map_cons, enclosureLength, ih]
    cases t.kind <;> simp

theorem TokenKind.opens_iff {kind : TokenKind} :
    kind.opens = true ↔ ∃ bracket, kind = .opening bracket := by
  cases kind <;> simp [opens]

theorem TokenKind.closes_iff {kind : TokenKind} :
    kind.closes = true ↔ ∃ bracket, kind = .closing bracket := by
  cases kind <;> simp [closes]

theorem TokenKind.opens_apart (kind : TokenKind) (h : kind.opens = true) : kind.closes = false := by
  obtain ⟨bracket, rfl⟩ := opens_iff.mp h
  rfl

theorem TokenKind.stringStart_apart (kind : TokenKind) (h : decide (kind = .stringStart) = true) :
    decide (kind = .stringEnd) = false := by
  rw [decide_eq_true_eq] at h
  simp [h]

section

variable {opens closes : TokenKind → Bool}

theorem not_opens_of_closes (hapart : ∀ kind, opens kind = true → closes kind = false)
    {kind : TokenKind} (h : closes kind = true) : opens kind = false := by
  cases hopens : opens kind with
  | false => rfl
  | true =>
    rw [hapart kind hopens] at h
    simp at h

/-- Walking back over the tokens leads from where they end to where they begin. -/
theorem enclosureLength_back (hapart : ∀ kind, opens kind = true → closes kind = false)
    {depth : Nat} {kinds : List TokenKind} (h : closesAtEnd opens closes depth kinds = true)
    (before : List TokenKind) :
    enclosureLength opens closes 0 (kinds.reverse ++ before) =
      (enclosureLength opens closes depth before).map (· + kinds.length) := by
  induction kinds generalizing depth before with
  | nil =>
    simp only [closesAtEnd, decide_eq_true_eq] at h
    simp [h]
  | cons kind rest ih =>
    simp only [closesAtEnd, Bool.and_eq_true, decide_eq_true_eq] at h
    obtain ⟨hdepth, hrest⟩ := h
    have hone : enclosureLength opens closes (depthBehind opens closes depth kind) (kind :: before) =
        (enclosureLength opens closes depth before).map (· + 1) := by
      unfold depthBehind
      by_cases hopens : opens kind = true
      · simp [enclosureLength, hopens, hapart kind hopens, show ¬ depth = 0 by omega]
      · by_cases hcloses : closes kind = true
        · simp [enclosureLength, hopens, hcloses, Nat.sub_add_cancel hdepth]
        · simp [enclosureLength, hopens, hcloses]
    rw [List.reverse_cons, List.append_assoc, List.singleton_append, ih hrest, hone, Option.map_map,
      List.length_cons]
    congr 1
    funext n
    simp only [Function.comp_apply]
    omega

/-- The walk back from inside an enclosure stops at a token that opens it: what it
    passed over is closed by whatever closes the depth it came from. -/
theorem enclosureLength_some (hapart : ∀ kind, opens kind = true → closes kind = false)
    {depth n : Nat} {kinds : List TokenKind} (hdepth : 0 < depth)
    (h : enclosureLength opens closes depth kinds = some n) :
    ∃ passed first before, kinds = passed ++ first :: before ∧ n = passed.length + 1 ∧
      opens first = true ∧ ∀ more, closesAtEnd opens closes depth more = true →
        closesAtEnd opens closes 1 (passed.reverse ++ more) = true := by
  induction kinds generalizing depth n with
  | nil => simp [enclosureLength] at h
  | cons kind rest ih =>
    -- The walk goes on behind a token that leads from `outer` to `depth`.
    have hpass : ∀ {outer m : Nat}, 0 < outer → depthBehind opens closes outer kind = depth →
        enclosureLength opens closes outer rest = some m →
        ∃ passed first before, kind :: rest = passed ++ first :: before ∧
          m + 1 = passed.length + 1 ∧ opens first = true ∧
          ∀ more, closesAtEnd opens closes depth more = true →
            closesAtEnd opens closes 1 (passed.reverse ++ more) = true := by
      intro outer m houter hbehind hm
      obtain ⟨passed, first, before, rfl, rfl, hfirst, hmore⟩ := ih houter hm
      refine ⟨kind :: passed, first, before, rfl, rfl, hfirst, fun more hclosed => ?_⟩
      rw [List.reverse_cons, List.append_assoc, List.singleton_append]
      apply hmore
      simp [closesAtEnd, houter, hbehind, hclosed]
    unfold enclosureLength at h
    split at h
    · rename_i hcloses
      have hopens := not_opens_of_closes hapart hcloses
      obtain ⟨m, hm, rfl⟩ := Option.map_eq_some_iff.mp h
      exact hpass (Nat.succ_pos depth) (by simp [depthBehind, hopens, hcloses]) hm
    · rename_i hcloses
      split at h
      · rename_i hopens
        split at h
        · obtain rfl : depth = 1 := by omega
          obtain rfl := Option.some.inj h
          exact ⟨[], kind, rest, rfl, rfl, hopens, fun more hclosed => hclosed⟩
        · obtain ⟨m, hm, rfl⟩ := Option.map_eq_some_iff.mp h
          exact hpass (by omega) (by simp [depthBehind, hopens]; omega) hm
      · rename_i hopens
        obtain ⟨m, hm, rfl⟩ := Option.map_eq_some_iff.mp h
        exact hpass hdepth (by simp [depthBehind, hopens, hcloses]) hm

/-- What closes everything that is open ends with a token that closes. -/
theorem closesAtEnd_last {depth : Nat} {kinds : List TokenKind} {last : TokenKind}
    (h : closesAtEnd opens closes depth (kinds ++ [last]) = true) : closes last = true := by
  induction kinds generalizing depth with
  | nil =>
    simp only [List.nil_append, closesAtEnd, Bool.and_eq_true, decide_eq_true_eq] at h
    obtain ⟨hdepth, hzero⟩ := h
    by_contra hcloses
    -- a token that does not close leaves at least as much open
    have hdeeper : depth ≤ depthBehind opens closes depth last := by
      unfold depthBehind
      rw [if_neg hcloses]
      split
      · exact Nat.le_succ depth
      · exact Nat.le_refl depth
    omega
  | cons kind rest ih =>
    simp only [List.cons_append, closesAtEnd, Bool.and_eq_true] at h
    exact ih h.2

end

/-! ### Enclosures of tokens -/

/-- `Enclosure opens closes first tokens`: a token of the kind `first`, and the tokens
    behind it up to the one that closes it. -/
inductive Enclosure (opens closes : TokenKind → Bool) (first : TokenKind) : List Token → Prop
  | intro {opening : Token} {rest : List Token} : opening.kind = first → opens first = true →
      closesAtEnd opens closes 1 (rest.map Token.kind) = true →
        Enclosure opens closes first (opening :: rest)

/-- A group, from the bracket that opens it to the one that closes it. -/
abbrev BracketGroup (bracket : Bracket) : List Token → Prop :=
  Enclosure TokenKind.opens TokenKind.closes (.opening bracket)

/-- An interpolated string, from its start to its end. -/
abbrev InterpolatedString : List Token → Prop :=
  Enclosure (· = .stringStart) (· = .stringEnd) .stringStart

namespace Enclosure

variable {opens closes : TokenKind → Bool} {first : TokenKind} {tokens : List Token}

theorem opens_first (h : Enclosure opens closes first tokens) : opens first = true := by
  cases h with
  | intro _ hopens _ => exact hopens

/-- An enclosure from its first token on to the one that closes it. -/
theorem parts (h : Enclosure opens closes first tokens) :
    ∃ opening inner closing, tokens = opening :: (inner ++ [closing]) ∧ opening.kind = first ∧
      closes closing.kind = true ∧
        closesAtEnd opens closes 1 ((inner ++ [closing]).map Token.kind) = true := by
  cases h with
  | @intro opening rest hfirst _ hclosed =>
    cases hrest : rest.reverse with
    | nil =>
      rw [List.reverse_eq_nil_iff.mp hrest] at hclosed
      simp [closesAtEnd] at hclosed
    | cons closing inner =>
      rw [List.reverse_eq_cons_iff] at hrest
      subst hrest
      have hlast := hclosed
      rw [List.map_append] at hlast
      exact ⟨opening, inner.reverse, closing, rfl, hfirst, closesAtEnd_last hlast, hclosed⟩

theorem head (h : Enclosure opens closes first tokens) :
    ∃ opening rest, tokens = opening :: rest ∧ opening.kind = first := by
  obtain ⟨opening, inner, closing, rfl, hfirst, -⟩ := h.parts
  exact ⟨opening, _, rfl, hfirst⟩

theorem last (h : Enclosure opens closes first tokens) :
    ∃ front closing, tokens = front ++ [closing] ∧ closes closing.kind = true := by
  obtain ⟨opening, inner, closing, rfl, -, hclosing, -⟩ := h.parts
  exact ⟨opening :: inner, closing, rfl, hclosing⟩

theorem kind_of_head (h : Enclosure opens closes first tokens) {t : Token}
    (ht : tokens.head? = some t) : t.kind = first := by
  obtain ⟨opening, rest, rfl, hfirst⟩ := h.head
  obtain rfl := Option.some.inj ht
  exact hfirst

theorem closes_of_last (h : Enclosure opens closes first tokens) {t : Token}
    (ht : tokens.getLast? = some t) : closes t.kind = true := by
  obtain ⟨front, closing, rfl, hclosing⟩ := h.last
  rw [List.getLast?_concat, Option.some.injEq] at ht
  exact ht ▸ hclosing

/-- Seen from its end, an enclosure begins with a token that closes. -/
theorem reverse_head (h : Enclosure opens closes first tokens) (before : List Token) :
    ∃ closing rest, tokens.reverse ++ before = closing :: rest ∧ closes closing.kind = true := by
  obtain ⟨front, closing, rfl, hclosing⟩ := h.last
  refine ⟨closing, front.reverse ++ before, ?_, hclosing⟩
  rw [List.reverse_append, List.reverse_singleton, List.singleton_append, List.cons_append]

/-- The walk back from the last token of an enclosure stops at the first. -/
theorem length_back (hapart : ∀ kind, opens kind = true → closes kind = false)
    (h : Enclosure opens closes first tokens) (before : List Token) :
    enclosureLength opens closes 0 ((tokens.reverse ++ before).map Token.kind) =
      some tokens.length := by
  cases h with
  | @intro opening rest hfirst hopens hclosed =>
    have hback := enclosureLength_back hapart hclosed (first :: before.map Token.kind)
    have hreverse : ((opening :: rest).reverse ++ before).map Token.kind =
        (rest.map Token.kind).reverse ++ first :: before.map Token.kind := by
      simp [hfirst]
    rw [hreverse, hback]
    simp [enclosureLength, hopens, hapart first hopens, Nat.add_comm]

/-- Where the walk back from a token that closes stops, the tokens it went over are an
    enclosure. -/
theorem of_length_back (hapart : ∀ kind, opens kind = true → closes kind = false) {t : Token}
    {before : List Token} {n : Nat} (ht : closes t.kind = true)
    (h : enclosureLength opens closes 0 ((t :: before).map Token.kind) = some n) :
    ∃ first, Enclosure opens closes first ((t :: before).take n).reverse := by
  have hnot := not_opens_of_closes hapart ht
  simp only [List.map_cons, enclosureLength, ht, if_true] at h
  obtain ⟨m, hm, rfl⟩ := Option.map_eq_some_iff.mp h
  obtain ⟨passed, first, behind, hkinds, rfl, hopens, hmore⟩ :=
    enclosureLength_some hapart Nat.one_pos hm
  obtain ⟨inner, rest, rfl, rfl, hrest⟩ := List.map_eq_append_iff.mp hkinds
  obtain ⟨opening, outer, rfl, rfl, rfl⟩ := List.map_eq_cons_iff.mp hrest
  have hclosed : closesAtEnd opens closes 1 [t.kind] = true := by
    simp [closesAtEnd, depthBehind, hnot, ht]
  refine ⟨opening.kind, ?_⟩
  have htake : ((t :: (inner ++ opening :: outer)).take (inner.length + 1 + 1)).reverse =
      opening :: (inner.reverse ++ [t]) := by
    simp [List.take_append, List.take_of_length_le]
  rw [List.length_map, htake]
  apply Enclosure.intro rfl hopens
  rw [List.map_append, List.map_reverse]
  exact hmore _ hclosed

end Enclosure

end GroovyShell
