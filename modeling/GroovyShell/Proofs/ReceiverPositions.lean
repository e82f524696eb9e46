/-
  GroovyShell/Proofs/ReceiverPositions.lean
  =========================================
  **The walk back over an expression, by positions.**

  The expression before a dot is found on the tokens listed backwards, where there is
  always a next token or none.  By positions it is a loop that takes numbers down: where
  the expression begins, where the scan for an opening bracket is, how many brackets are
  open.  Each of them could be taken below zero, and each position could be one that no
  token has.  Here every look and every subtraction is checked, and no check ever fails,
  whatever the tokens are.

  What carries the proof is that a position and the tokens before it, nearest first, say
  the same.  So the loop by positions does step by step what the walk does, and comes out
  where the walk stops.
-/
import GroovyShell.Proofs.ReceiverChain

namespace GroovyShell

/-! ### Checked positions -/

/-- What must not happen to a position. -/
inductive PositionFault where
  /-- There is no token at it. -/
  | outside
  /-- More is taken from it than it has. -/
  | belowZero
deriving DecidableEq, Repr

def less (n m : Nat) : Except PositionFault Nat :=
  if m ≤ n then .ok (n - m) else .error .belowZero

def tokenAt (tokens : List Token) (i : Nat) : Except PositionFault Token :=
  match tokens[i]? with
  | some t => .ok t
  | none => .error .outside

/-- The tokens before a position, which may be the end. -/
def tokensUpTo (tokens : List Token) (stop : Nat) : Except PositionFault (List Token) :=
  if stop ≤ tokens.length then .ok (tokens.take stop) else .error .outside

/-- The tokens from a position on, which may be the end. -/
def tokensFrom (tokens : List Token) (start : Nat) : Except PositionFault (List Token) :=
  if start ≤ tokens.length then .ok (tokens.drop start) else .error .outside

/-! ### The walk -/

/-- The position of the token that opens what is open to some depth, looked for from a
    position back. -/
def openerBefore (opens closes : TokenKind → Bool) (tokens : List Token) (depth : Nat) :
    Nat → Except PositionFault (Option Nat)
  | 0 => .ok none
  | i + 1 => do
    let t ← tokenAt tokens i
    if closes t.kind then openerBefore opens closes tokens (depth + 1) i
    else if opens t.kind then do
      let depth ← less depth 1
      if depth = 0 then .ok (some i) else openerBefore opens closes tokens depth i
    else openerBefore opens closes tokens depth i

/-- Where the operand begins that ends before a position, and whether it is a group. -/
def operandStart (tokens : List Token) (start : Nat) :
    Except PositionFault (Option (Nat × Bool)) :=
  if start = 0 then .ok none
  else do
    let last ← less start 1
    let t ← tokenAt tokens last
    match t.kind with
    | .closing _ => do
      let opener ← openerBefore TokenKind.opens TokenKind.closes tokens 0 (last + 1)
      .ok (opener.map (·, true))
    | .stringEnd => do
      let opener ← openerBefore (· = .stringStart) (· = .stringEnd) tokens 0 (last + 1)
      .ok (opener.map (·, false))
    | .name | .number | .string
    | .keyword .kwThis | .keyword .kwSuper | .keyword .kwNull => .ok (some (last, false))
    | _ => .ok none

/-- What one round of the loop leads to. -/
inductive Round where
  /-- The expression begins here. -/
  | done (start : Nat)
  /-- Something before this position may belong to it. -/
  | onward (start : Nat)
deriving DecidableEq, Repr

/-- Whether a group that begins with one token is applied to the token before it: a closure
    to a name or a call, arguments and an index also to what ends in a square bracket. -/
def groupApplies (opening : TokenKind) : TokenKind → Bool
  | .name | .closing .paren => true
  | .closing .square => opening ≠ .opening .brace
  | _ => false

/-- One round: an operand, then the token before it. -/
def roundBack (tokens : List Token) (start : Nat) : Except PositionFault Round := do
  match ← operandStart tokens start with
  | none => .ok (.done start)
  | some (first, grouped) =>
    if first = 0 then .ok (.done first)
    else do
      let previous ← less first 1
      let before ← tokenAt tokens previous
      if before.kind.isDot then .ok (.onward previous)
      else do
        let opening ← tokenAt tokens first
        .ok (if grouped && groupApplies opening.kind before.kind then .onward first
          else .done first)

/-! ### A position and what stands before it -/

/-- The tokens before a position, the nearest first. -/
def backFrom (tokens : List Token) (i : Nat) : List Token := (tokens.take i).reverse

section

variable {tokens : List Token} {i : Nat}

theorem backFrom_succ {t : Token} (h : tokens[i]? = some t) :
    backFrom tokens (i + 1) = t :: backFrom tokens i := by
  rw [backFrom, List.take_add_one, h, Option.toList_some, List.reverse_append]
  rfl

theorem length_backFrom (h : i ≤ tokens.length) : (backFrom tokens i).length = i := by
  rw [backFrom, List.length_reverse, List.length_take, Nat.min_eq_left h]

/-- What is left when some of them are taken away is where the tokens begin. -/
theorem reverse_prefix_of_backFrom {passed before : List Token}
    (h : backFrom tokens i = passed ++ before) : before.reverse <+: tokens := by
  have htake : tokens.take i = before.reverse ++ passed.reverse := by
    rw [← List.reverse_append, ← h, backFrom, List.reverse_reverse]
  exact (List.prefix_append _ _).trans (htake ▸ List.take_prefix i tokens)

theorem backFrom_of_append {passed before : List Token} (h : backFrom tokens i = passed ++ before) :
    backFrom tokens before.length = before := by
  obtain ⟨rest, rfl⟩ := reverse_prefix_of_backFrom h
  rw [backFrom, List.take_left' (by simp), List.reverse_reverse]

theorem getElem?_of_backFrom {passed before : List Token} {t : Token}
    (h : backFrom tokens i = passed ++ t :: before) : tokens[before.length]? = some t := by
  obtain ⟨rest, rfl⟩ := reverse_prefix_of_backFrom h
  simp

theorem exists_tokenAt (h : i < tokens.length) : ∃ t, tokens[i]? = some t :=
  ⟨_, List.getElem?_eq_getElem h⟩

theorem tokenAt_some {t : Token} (h : tokens[i]? = some t) : tokenAt tokens i = .ok t := by
  rw [tokenAt, h]

theorem less_of_le {n m : Nat} (h : m ≤ n) : less n m = .ok (n - m) := if_pos h

end

/-! ### Operands by positions -/

section

variable {tokens : List Token} {start : Nat}

/-- The scan for an opener never fails if something is open, or is opened by the first
    token: it stops where the walk over the tokens stops. -/
theorem openerBefore_eq (opens closes : TokenKind → Bool) {depth i : Nat}
    (hi : i ≤ tokens.length)
    (hopen : 0 < depth ∨ ∀ t ∈ (backFrom tokens i).head?, closes t.kind = true) :
    openerBefore opens closes tokens depth i =
      .ok ((enclosureLength opens closes depth ((backFrom tokens i).map Token.kind)).map
        (i - ·)) := by
  induction i generalizing depth with
  | zero => rfl
  | succ i ih =>
    obtain ⟨t, ht⟩ := exists_tokenAt (Nat.lt_of_succ_le hi)
    rw [backFrom_succ ht] at hopen ⊢
    -- a number of tokens back from here is one more than from the token before
    have hshift (n : Option Nat) : (n.map (· + 1)).map (i + 1 - ·) = n.map (i - ·) := by
      rw [Option.map_map]
      congr 1
      funext m
      exact Nat.add_sub_add_right i 1 m
    simp only [openerBefore, tokenAt_some ht, bind, Except.bind, List.map_cons, enclosureLength]
    by_cases hcloses : closes t.kind = true
    · rw [if_pos hcloses, if_pos hcloses, ih (by omega) (.inl (Nat.succ_pos depth)), hshift]
    · have hdepth : 0 < depth := by simpa [hcloses] using hopen
      rw [if_neg hcloses, if_neg hcloses]
      by_cases hopens : opens t.kind = true
      · rw [if_pos hopens, if_pos hopens, less_of_le hdepth]
        by_cases hone : depth ≤ 1
        · simp [hone, Nat.sub_eq_zero_of_le hone]
        · simp only [if_neg hone, if_neg (by omega : ¬ depth - 1 = 0)]
          rw [ih (by omega) (.inl (by omega)), hshift]
      · rw [if_neg hopens, if_neg hopens, ih (by omega) (.inl hdepth), hshift]

/-- A number of tokens back from a position, as the position it leads to. -/
theorem map_cut (hstart : start ≤ tokens.length) (grouped : Bool) (n : Option Nat) :
    (n.map fun m => Operand.cut grouped m (backFrom tokens start)).map
        (fun o => (o.before.length, o.grouped)) =
      (n.map (start - ·)).map (·, grouped) := by
  rw [Option.map_map, Option.map_map]
  congr 1
  funext m
  simp [Operand.cut, length_backFrom hstart]

/-- The loop finds the operand that the walk finds. -/
theorem operandStart_eq (hstart : start ≤ tokens.length) :
    operandStart tokens start =
      .ok ((operand (backFrom tokens start)).map fun o => (o.before.length, o.grouped)) := by
  cases start with
  | zero => rfl
  | succ last =>
    obtain ⟨t, ht⟩ := exists_tokenAt (Nat.lt_of_succ_le hstart)
    have hlast : (backFrom tokens last).length = last := length_backFrom (by omega)
    have hscan (opens closes : TokenKind → Bool) (hcloses : closes t.kind = true) :
        openerBefore opens closes tokens 0 (last + 1) =
          .ok ((enclosureLength opens closes 0 ((backFrom tokens (last + 1)).map Token.kind)).map
            (last + 1 - ·)) := by
      apply openerBefore_eq opens closes hstart
      right
      simp [backFrom_succ ht, hcloses]
    have hmap := map_cut hstart
    rw [backFrom_succ ht] at hscan hmap ⊢
    simp only [operandStart, Nat.add_one_ne_zero, if_false, less_of_le (Nat.le_add_left 1 last),
      Nat.add_sub_cancel, bind, Except.bind, tokenAt_some ht, operand]
    cases hkind : t.kind with
    | closing bracket =>
      have hcloses : t.kind.closes = true := by rw [hkind]; rfl
      simp only [hscan _ _ hcloses, groupLength_eq, hmap]
    | stringEnd =>
      have hcloses : decide (t.kind = .stringEnd) = true := by simp [hkind]
      simp only [hscan (· = .stringStart) (· = .stringEnd) hcloses, interpolatedLength_eq, hmap]
    | keyword word => cases word <;> simp [hlast]
    | name | number | string => simp [hlast]
    | _ => rfl

/-! ### Rounds -/

/-- What a round leads to, told by the operand before a position. -/
def Round.ofOperand (start : Nat) : Option Operand → Round
  | none => .done start
  | some o =>
    match o.before with
    | [] => .done 0
    | before :: rest =>
      if before.kind.isDot then .onward rest.length
      else if o.isAppliedTo before then .onward (rest.length + 1)
      else .done (rest.length + 1)

/-- What stands at the position where an operand begins is its first token. -/
theorem getElem?_operand {o : Operand} (ho : operand (backFrom tokens start) = some o) :
    ∃ opening, tokens[o.before.length]? = some opening ∧ o.tokens.getLast? = some opening := by
  obtain ⟨hsplit, group, hpiece⟩ := piece_of_operand ho
  obtain ⟨passed, opening, htokens⟩ :=
    (List.eq_nil_or_concat' o.tokens).resolve_left (by simpa using hpiece.ne_nil)
  rw [htokens, List.append_assoc] at hsplit
  exact ⟨opening, getElem?_of_backFrom hsplit, by rw [htokens, List.getLast?_concat]⟩

theorem isAppliedTo_eq {o : Operand} {opening : Token} (h : o.tokens.getLast? = some opening)
    (before : Token) :
    o.isAppliedTo before = (o.grouped && groupApplies opening.kind before.kind) := by
  unfold Operand.isAppliedTo
  congr 1
  rw [h, Option.any_some]
  cases before.kind with
  | closing bracket => cases bracket <;> simp [groupApplies]
  | _ => rfl

theorem roundBack_eq (hstart : start ≤ tokens.length) :
    roundBack tokens start = .ok (.ofOperand start (operand (backFrom tokens start))) := by
  rw [roundBack, operandStart_eq hstart]
  cases ho : operand (backFrom tokens start) with
  | none => rfl
  | some o =>
    obtain ⟨opening, hopening, hfirst⟩ := getElem?_operand ho
    obtain ⟨hsplit, -⟩ := piece_of_operand ho
    cases hbefore : o.before with
    | nil => simp [bind, Except.bind, Round.ofOperand, hbefore]
    | cons before rest =>
      rw [hbefore] at hsplit hopening
      have hprevious := getElem?_of_backFrom hsplit
      simp only [bind, Except.bind, Round.ofOperand, hbefore, Option.map_some, List.length_cons,
        Nat.add_one_ne_zero, if_false, less_of_le (Nat.le_add_left 1 _), Nat.add_sub_cancel,
        tokenAt_some hprevious]
      split
      · rfl
      · rw [← List.length_cons, tokenAt_some hopening, isAppliedTo_eq hfirst]

/-- Rounds are only made at positions there are. -/
theorem le_of_roundBack {round : Round} (h : roundBack tokens start = .ok round) :
    start ≤ tokens.length := by
  cases start with
  | zero => exact Nat.zero_le _
  | succ last =>
    by_contra hlarge
    have hnone : tokens[last]? = none := List.getElem?_eq_none (by omega)
    simp [roundBack, operandStart, less, tokenAt, hnone, bind, Except.bind] at h

/-- The position a round leads to. -/
def Round.position : Round → Nat
  | .done start | .onward start => start

/-- What of the expression is found after a round. -/
def Round.ahead (tokens : List Token) : Round → List Token
  | .done _ => []
  | .onward start => receiverBack (backFrom tokens start)

/-- A round goes over the tokens that the walk goes over, and a round that does not end
    the loop goes over some. -/
theorem roundBack_passes {round : Round} (h : roundBack tokens start = .ok round) :
    ∃ passed, receiverBack (backFrom tokens start) = passed ++ round.ahead tokens ∧
      start = passed.length + round.position ∧
      ∀ next, round = .onward next → passed ≠ [] := by
  have hstart := le_of_roundBack h
  rw [roundBack_eq hstart, Except.ok.injEq] at h
  subst h
  cases ho : operand (backFrom tokens start) with
  | none =>
    exact ⟨[], receiverBack_none ho, (Nat.zero_add start).symm, by simp [Round.ofOperand]⟩
  | some o =>
    obtain ⟨hsplit, group, hpiece⟩ := piece_of_operand ho
    have hsome : o.tokens ≠ [] := by simpa using hpiece.ne_nil
    have hlength : start = o.tokens.length + o.before.length := by
      rw [← List.length_append, ← hsplit, length_backFrom hstart]
    rw [receiverBack_some ho]
    cases hbefore : o.before with
    | nil =>
      rw [hbefore] at hlength
      exact ⟨o.tokens, by simp [walkOn, Round.ofOperand, hbefore, Round.ahead],
        by simpa [Round.ofOperand, hbefore, Round.position] using hlength,
        by simp [Round.ofOperand, hbefore]⟩
    | cons before rest =>
      rw [hbefore] at hlength hsplit
      have hhere := backFrom_of_append hsplit
      have hrest : backFrom tokens rest.length = rest :=
        backFrom_of_append (hsplit.trans (List.append_cons ..))
      simp only [walkOn, Round.ofOperand, hbefore]
      split
      · refine ⟨o.tokens ++ [before], ?_, ?_, ?_⟩
        · simp [Round.ahead, hrest]
        · simp only [Round.position, List.length_append, List.length_singleton]
          rw [hlength, List.length_cons]
          omega
        · simp
      · split
        · refine ⟨o.tokens, ?_, hlength, ?_⟩
          · rw [Round.ahead, ← List.length_cons, hhere]
          · intro _ _
            exact hsome
        · exact ⟨o.tokens, rfl, hlength, by simp⟩

/-- A round that does not end the loop takes the position down. -/
theorem roundBack_lt {next : Nat} (h : roundBack tokens start = .ok (.onward next)) :
    next < start := by
  obtain ⟨passed, -, hlength, hsome⟩ := roundBack_passes h
  have hpos := List.length_pos_iff.mpr (hsome next rfl)
  simp only [Round.position] at hlength
  omega

/-- The loop: where the expression begins that ends before a position. -/
def walkBack (tokens : List Token) (start : Nat) : Except PositionFault Nat :=
  match _h : roundBack tokens start with
  | .error fault => .error fault
  | .ok (.done first) => .ok first
  | .ok (.onward next) => walkBack tokens next
termination_by start
decreasing_by exact roundBack_lt _h

/-- The loop comes out where the walk stops. -/
theorem walkBack_eq (hstart : start ≤ tokens.length) :
    walkBack tokens start = .ok (start - (receiverBack (backFrom tokens start)).length) := by
  fun_induction walkBack tokens start with
  | case1 start fault h =>
    rw [roundBack_eq hstart] at h
    simp at h
  | case2 start first h =>
    obtain ⟨passed, hfound, hlength, -⟩ := roundBack_passes h
    rw [hfound, Round.ahead, List.append_nil, hlength, Nat.add_sub_cancel_left]
    rfl
  | case3 start next h ih =>
    obtain ⟨passed, hfound, hlength, -⟩ := roundBack_passes h
    have hnext := roundBack_lt h
    rw [ih (by omega), hfound, Round.ahead, List.length_append, hlength, Nat.sub_add_eq,
      Nat.add_sub_cancel_left]
    rfl

end

/-! ### The expression before the dot -/

/-- The position of the dot a member is reached by: the last one, or the one before a
    name. -/
def dotPosition (tokens : List Token) : Except PositionFault (Option Nat) := do
  let i ← less tokens.length 1
  let last ← tokenAt tokens i
  if last.kind.isDot then .ok (some i)
  else if last.kind = .name ∧ 2 ≤ tokens.length then do
    let i ← less tokens.length 2
    let dot ← tokenAt tokens i
    .ok (if dot.kind.isDot then some i else none)
  else .ok none

/-- The tokens from where the loop comes out up to the dot. -/
def receiverAt (tokens : List Token) : Except PositionFault (List Token) := do
  match ← dotPosition tokens with
  | none => .ok []
  | some stop => do
    let before ← tokensUpTo tokens stop
    let start ← walkBack before stop
    tokensFrom before start

/-- What the walk finds are the tokens that it begins with. -/
theorem receiverBack_prefix (tokens : List Token) : receiverBack tokens <+: tokens := by
  fun_induction receiverBack tokens with
  | case1 tokens hoperand => exact List.nil_prefix
  | case2 tokens o hoperand hbefore =>
    rw [(piece_of_operand hoperand).1]
    exact List.prefix_append ..
  | case3 tokens o hoperand dot rest hbefore hdot ih =>
    rw [(piece_of_operand hoperand).1, hbefore, List.prefix_append_right_inj, List.prefix_cons_inj]
    exact ih
  | case4 tokens o hoperand before rest hbefore hnodot happlied ih =>
    rw [(piece_of_operand hoperand).1, hbefore, List.prefix_append_right_inj]
    exact ih
  | case5 tokens o hoperand before rest hbefore hnodot happlied =>
    rw [(piece_of_operand hoperand).1]
    exact List.prefix_append ..

namespace TokenStream

theorem exists_ofTokens {tokens : List Token} (h : tokens ≠ []) : ∃ s, ofTokens tokens = some s := by
  obtain ⟨earlier, last, rfl⟩ := (List.eq_nil_or_concat' tokens).resolve_left h
  exact ⟨⟨last, earlier.reverse⟩, by simp [ofTokens]⟩

variable (s : TokenStream)

theorem length_tokens : s.tokens.length = s.earlier.length + 1 := by
  simp [tokens]

theorem backFrom_tokens : backFrom s.tokens s.tokens.length = [s.last] ++ s.earlier := by
  rw [backFrom, List.take_length, tokens, List.reverse_reverse]
  rfl

theorem getElem?_last : s.tokens[s.earlier.length]? = some s.last := by
  have hback : backFrom s.tokens s.tokens.length = [] ++ s.last :: s.earlier := s.backFrom_tokens
  exact getElem?_of_backFrom hback

/-- The dot is found where the stream has it. -/
theorem dotPosition_tokens : dotPosition s.tokens = .ok s.dotIndex := by
  simp only [dotPosition, dotIndex, beforeDot, s.length_tokens, less_of_le (Nat.le_add_left 1 _),
    Nat.add_sub_cancel, bind, Except.bind, tokenAt_some s.getElem?_last]
  split
  · rfl
  · cases hearlier : s.earlier with
    | nil => simp
    | cons dot rest =>
      have hback : backFrom s.tokens s.tokens.length = [s.last] ++ dot :: rest := by
        rw [s.backFrom_tokens, hearlier]
      have htwo : 2 ≤ rest.length + 1 + 1 := by omega
      have hless : less (rest.length + 1 + 1) 2 = .ok rest.length := less_of_le htwo
      by_cases hname : s.last.kind = .name
      · simp only [hname, List.length_cons, htwo, and_self, if_true, hless,
          tokenAt_some (getElem?_of_backFrom hback), true_and]
        split <;> rfl
      · simp [hname]

variable {s}

/-- What stands before the dot are the tokens before its position. -/
theorem dot_of_beforeDot {before : List Token} (h : s.beforeDot = some before) :
    backFrom s.tokens before.length = before ∧
      ∃ dot, s.tokens[before.length]? = some dot ∧ dot.kind.isDot = true := by
  unfold beforeDot at h
  split at h
  · rename_i hdot
    obtain rfl := Option.some.inj h
    exact ⟨backFrom_of_append s.backFrom_tokens, s.last, s.getElem?_last, hdot⟩
  · split at h
    · rename_i dot rest hearlier
      split at h
      · rename_i hdot
        obtain rfl := Option.some.inj h
        have hback : backFrom s.tokens s.tokens.length = [s.last] ++ dot :: rest := by
          rw [s.backFrom_tokens, hearlier]
        exact ⟨backFrom_of_append (hback.trans (List.append_cons ..)), dot,
          getElem?_of_backFrom hback, hdot.2⟩
      · simp at h
    · simp at h

/-- The loop, sent back from the dot, finds the expression the walk finds. -/
theorem walkBack_tokens {before : List Token} (h : s.beforeDot = some before) :
    ∃ start, start ≤ before.length ∧
      walkBack (s.tokens.take before.length) before.length = .ok start ∧
      s.receiver = (s.tokens.take before.length).drop start := by
  have hback := (dot_of_beforeDot h).1
  have htake : s.tokens.take before.length = before.reverse := List.reverse_eq_iff.mp hback
  have hreceiver : s.receiver = (receiverBack before).reverse := by
    rw [receiver, h]
  obtain ⟨rest, hrest⟩ := receiverBack_prefix before
  have hall : backFrom before.reverse before.length = before := by
    rw [backFrom, List.take_of_length_le (by simp), List.reverse_reverse]
  refine ⟨before.length - (receiverBack before).length, Nat.sub_le .., ?_, ?_⟩
  · rw [htake, walkBack_eq (by simp), hall]
  · have hlength : rest.reverse.length = before.length - (receiverBack before).length := by
      have hboth := congrArg List.length hrest
      rw [List.length_append] at hboth
      rw [List.length_reverse]
      omega
    have hsplit : before.reverse = rest.reverse ++ (receiverBack before).reverse := by
      rw [← List.reverse_append, hrest]
    rw [htake, hreceiver, ← hlength, hsplit, List.drop_left]

theorem receiverAt_tokens (s : TokenStream) : receiverAt s.tokens = .ok s.receiver := by
  unfold receiverAt
  rw [s.dotPosition_tokens, dotIndex]
  cases hbefore : s.beforeDot with
  | none => simp [bind, Except.bind, receiver, hbefore]
  | some before =>
    obtain ⟨-, dot, hdot, -⟩ := dot_of_beforeDot hbefore
    obtain ⟨start, hstart, hwalk, hreceiver⟩ := walkBack_tokens hbefore
    have hle : before.length ≤ s.tokens.length :=
      Nat.le_of_lt (List.getElem?_eq_some_iff.mp hdot).1
    have hlength : (s.tokens.take before.length).length = before.length := by
      rw [List.length_take, Nat.min_eq_left hle]
    simp only [bind, Except.bind, Option.map_some, tokensUpTo, if_pos hle, hwalk, tokensFrom,
      hlength, if_pos hstart, hreceiver]

end TokenStream

/-- A round at a position there is looks at no other.  It never leads up, and down if the
    loop goes on. -/
theorem exists_roundBack {tokens : List Token} {start : Nat} (h : start ≤ tokens.length) :
    ∃ round, roundBack tokens start = .ok round ∧ round.position ≤ start ∧
      ∀ next, round = .onward next → next < start := by
  have hround := roundBack_eq h
  obtain ⟨passed, -, hlength, -⟩ := roundBack_passes hround
  refine ⟨_, hround, by omega, ?_⟩
  intro next hnext
  rw [hnext] at hround
  exact roundBack_lt hround

/-- **The walk back is safe on any tokens.**  Whatever the tokens are, by positions the dot
    and the expression before it are found without looking where no token is and without
    taking more from a number than it has.  The expression is the tokens from some position
    up to the dot, and nothing without a dot.  Every round of the loop, at whatever position,
    leads to a position that is no higher, and to a lower one if the loop goes on. -/
theorem receiver_positions {tokens : List Token} (h : tokens ≠ []) :
    ∃ s, TokenStream.ofTokens tokens = some s ∧ dotPosition tokens = .ok s.dotIndex ∧
      receiverAt tokens = .ok s.receiver ∧ (s.dotIndex = none → s.receiver = []) ∧
      (∀ stop, s.dotIndex = some stop →
        (∃ dot, tokens[stop]? = some dot ∧ dot.kind.isDot = true) ∧
          ∃ start, start ≤ stop ∧ walkBack (tokens.take stop) stop = .ok start ∧
            s.receiver = (tokens.take stop).drop start) ∧
      ∀ (before : List Token) (start : Nat), start ≤ before.length →
        ∃ round, roundBack before start = .ok round ∧ round.position ≤ start ∧
          ∀ next, round = .onward next → next < start := by
  obtain ⟨s, hs⟩ := TokenStream.exists_ofTokens h
  obtain rfl := TokenStream.tokens_of_ofTokens hs
  refine ⟨s, hs, s.dotPosition_tokens, s.receiverAt_tokens, ?_, ?_, ?_⟩
  · intro hnone
    rw [TokenStream.receiver, Option.map_eq_none_iff.mp hnone]
  · intro stop hstop
    obtain ⟨before, hbefore, rfl⟩ := Option.map_eq_some_iff.mp hstop
    exact ⟨(TokenStream.dot_of_beforeDot hbefore).2, TokenStream.walkBack_tokens hbefore⟩
  · intro before start hstart
    exact exists_roundBack hstart

/-- Brackets of different kinds, a string that never began and operands without
    operators. -/
theorem receiver_positions_unmatched :
    let token (kind : TokenKind) : Token := ⟨kind, [], .start⟩
    let tokens := [token .stringEnd, token (.closing .paren), token .name,
      token (.opening .brace), token (.closing .square), token (.dot .plain), token .name]
    tokens ≠ [] ∧ dotPosition tokens = .ok (some 5) ∧ receiverAt tokens = .ok [token .name,
      token (.opening .brace), token (.closing .square)] := by
  intro token tokens
  have hsome : tokens ≠ [] := by simp [tokens]
  obtain ⟨s, hs, hdot, hreceiver, -⟩ := receiver_positions hsome
  obtain rfl := Option.some.inj hs
  refine ⟨hsome, hdot, hreceiver.trans ?_⟩
  cbv

end GroovyShell
