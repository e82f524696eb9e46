/-
  GroovyShell/Completion/Stream.lean
  ==================================
  **The tokens up to the cursor, read from their end.**

  Completion never looks at a program as a whole.  It looks at the token the
  cursor is at, at the one before it, and back from a dot over the expression a
  member is selected from.  The stream is kept the way it is read: the last
  token, then the earlier ones, the nearest first.  It is never empty.
-/
import GroovyShell.Lexing.Token

namespace GroovyShell

structure TokenStream where
  /-- The token at or just before the cursor. -/
  last : Token
  /-- The tokens before it, the nearest first. -/
  earlier : List Token
deriving DecidableEq, Repr

namespace TokenStream

def ofTokens (tokens : List Token) : Option TokenStream :=
  match tokens.reverse with
  | [] => none
  | last :: earlier => some ⟨last, earlier⟩

def tokens (s : TokenStream) : List Token := (s.last :: s.earlier).reverse

@[simp] theorem ofTokens_tokens (s : TokenStream) : ofTokens s.tokens = some s := by
  simp [ofTokens, tokens]

theorem tokens_of_ofTokens {tokens : List Token} {s : TokenStream} (h : ofTokens tokens = some s) :
    s.tokens = tokens := by
  unfold ofTokens at h
  split at h
  · simp at h
  · rename_i last earlier hr
    simp only [Option.some.injEq] at h
    subst h
    rw [TokenStream.tokens, ← hr, List.reverse_reverse]

def previous (s : TokenStream) : Option Token := s.earlier.head?

/-- The word being typed: the text of the last token if that is a name. -/
def word (s : TokenStream) : Text :=
  if s.last.kind = .name then s.last.text else []

/-- The tokens before the dot a member is reached by, the nearest first.  That
    dot is the last token, or the one before the name typed last. -/
def beforeDot (s : TokenStream) : Option (List Token) :=
  if s.last.kind.isDot then some s.earlier
  else
    match s.earlier with
    | dot :: rest => if s.last.kind = .name ∧ dot.kind.isDot then some rest else none
    | [] => none

/-- Where the dot a member is reached by stands among the tokens. -/
def dotIndex (s : TokenStream) : Option Nat := s.beforeDot.map List.length

end TokenStream

/-! ### Walking back over an expression

Tokens are listed backwards here, the nearest to the dot first. -/

/-- Number of tokens back to the one that opens the group the first token
    closes, that one included.  Brackets of all kinds count together. -/
def groupLength (depth : Nat) : List Token → Option Nat
  | [] => none
  | t :: rest =>
    match t.kind with
    | .closing _ => (groupLength (depth + 1) rest).map (· + 1)
    | .opening _ =>
      if depth ≤ 1 then some 1 else (groupLength (depth - 1) rest).map (· + 1)
    | _ => (groupLength depth rest).map (· + 1)

/-- Number of tokens back to the start of the interpolated string that ends
    with the first token, that start included. -/
def interpolatedLength (depth : Nat) : List Token → Option Nat
  | [] => none
  | t :: rest =>
    match t.kind with
    | .stringEnd => (interpolatedLength (depth + 1) rest).map (· + 1)
    | .stringStart =>
      if depth ≤ 1 then some 1 else (interpolatedLength (depth - 1) rest).map (· + 1)
    | _ => (interpolatedLength depth rest).map (· + 1)

/-- One operand of an expression, seen from its end. -/
structure Operand where
  /-- Its tokens, the last one first. -/
  tokens : List Token
  /-- The tokens before it, the nearest first. -/
  before : List Token
  /-- Whether it is a bracketed group, so that something may be applied to it. -/
  grouped : Bool
deriving DecidableEq, Repr

/-- The operand of the first so many tokens. -/
def Operand.cut (grouped : Bool) (length : Nat) (tokens : List Token) : Operand :=
  ⟨tokens.take length, tokens.drop length, grouped⟩

/-- The operand that ends with the first token: a group, a string, a number, a
    name, or one of the words that stand for an object. -/
def operand : List Token → Option Operand
  | [] => none
  | t :: rest =>
    match t.kind with
    | .closing _ => (groupLength 0 (t :: rest)).map fun n => .cut true n (t :: rest)
    | .stringEnd => (interpolatedLength 0 (t :: rest)).map fun n => .cut false n (t :: rest)
    | .name | .number | .string
    | .keyword .kwThis | .keyword .kwSuper | .keyword .kwNull => some ⟨[t], rest, false⟩
    | _ => none

/-- Whether the operand is a group applied to the token before it: arguments or
    an index to a name or another group, a closure to a name or a call. -/
def Operand.isAppliedTo (o : Operand) (before : Token) : Bool :=
  o.grouped &&
    match before.kind with
    | .name | .closing .paren => true
    | .closing .square => !(o.tokens.getLast?.any (·.kind = .opening .brace))
    | _ => false

theorem groupLength_pos {tokens : List Token} : ∀ {depth n : Nat},
    groupLength depth tokens = some n → 0 < n := by
  cases tokens with
  | nil => simp [groupLength]
  | cons t rest =>
    intro depth n h
    unfold groupLength at h
    split at h <;> (try split at h) <;>
      simp only [Option.map_eq_some_iff, Option.some.injEq] at h <;> grind

theorem interpolatedLength_pos {tokens : List Token} : ∀ {depth n : Nat},
    interpolatedLength depth tokens = some n → 0 < n := by
  cases tokens with
  | nil => simp [interpolatedLength]
  | cons t rest =>
    intro depth n h
    unfold interpolatedLength at h
    split at h <;> (try split at h) <;>
      simp only [Option.map_eq_some_iff, Option.some.injEq] at h <;> grind

theorem operand_before_lt {tokens : List Token} {o : Operand} (h : operand tokens = some o) :
    o.before.length < tokens.length := by
  unfold operand at h
  split at h
  · simp at h
  · split at h <;> simp only [Option.map_eq_some_iff, Option.some.injEq, reduceCtorEq] at h
    · obtain ⟨n, hn, rfl⟩ := h
      have := groupLength_pos hn
      simp [Operand.cut]; omega
    · obtain ⟨n, hn, rfl⟩ := h
      have := interpolatedLength_pos hn
      simp [Operand.cut]; omega
    all_goals subst h; simp

/-- The tokens, nearest first, of the expression that ends with the first token:
    operands joined by dots, and what they are applied to. -/
def receiverBack (tokens : List Token) : List Token :=
  match _h : operand tokens with
  | none => []
  | some o =>
    match _hb : o.before with
    | [] => o.tokens
    | before :: rest =>
      if before.kind.isDot then o.tokens ++ before :: receiverBack rest
      else if o.isAppliedTo before then o.tokens ++ receiverBack (before :: rest)
      else o.tokens
termination_by tokens.length
decreasing_by
  all_goals
    have := operand_before_lt _h
    simp_all
  omega

namespace TokenStream

/-- The expression a member is being selected from, in source order.  Nothing
    when there is no dot, or nothing usable before it. -/
def receiver (s : TokenStream) : List Token :=
  match s.beforeDot with
  | some before => (receiverBack before).reverse
  | none => []

def receiverText (s : TokenStream) : Text := (s.receiver.map Token.text).flatten

end TokenStream

end GroovyShell
