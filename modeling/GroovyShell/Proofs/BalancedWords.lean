/-
  GroovyShell/Proofs/BalancedWords.lean
  =====================================
  **The declarations of a single line, by its words.**

  On one line a statement starts only behind a semicolon or a closing brace, so
  what is declared there depends on the words of the line alone.  Balanced
  brackets are passed over whatever stands between them, and words that hold no
  semicolon and no brace outside of brackets declare nothing once the statement
  they belong to has begun.
-/
import GroovyShell.Proofs.DeclarationLines

namespace GroovyShell

/-- A token that is written as a word, placed at the start. -/
def Token.ofWord (word : TokenKind × Text) : Token := ⟨word.1, word.2, .start⟩

@[simp] theorem Token.ofWord_kind (word : TokenKind × Text) : (ofWord word).kind = word.1 := rfl

@[simp] theorem Token.ofWord_text (word : TokenKind × Text) : (ofWord word).text = word.2 := rfl

/-! ### Words on one line -/

/-- Whether another statement may start behind a word on the same line. -/
def endsStatement (word : TokenKind × Text) : Bool :=
  word.1 = .semicolon || word.1 = .closing .brace

/-- What words on one line declare at the outermost level.  They stand at the given
    depth, and `fresh` says whether a statement may start at the first of them. -/
def wordsDeclare (depth : Nat) (fresh : Bool) : List (TokenKind × Text) → List Declaration
  | [] => []
  | word :: rest =>
    let depth := depthAfter depth (.ofWord word)
    let here :=
      if depth = 0 ∧ fresh then (declarationAt ((word :: rest).map Token.ofWord)).toList else []
    here ++ wordsDeclare depth (endsStatement word) rest

theorem declarationsFrom_words {depth line : Nat} {before : Option Token} {tokens : List Token}
    (hbefore : ∀ t ∈ before, t.position.line = line)
    (htokens : ∀ t ∈ tokens, t.position.line = line) :
    declarationsFrom depth before tokens =
      wordsDeclare depth (before.all fun t => endsStatement t.word) (tokens.map Token.word) := by
  induction tokens generalizing depth before with
  | nil => rfl
  | cons t rest ih =>
    have ht : t.position.line = line := htokens t List.mem_cons_self
    have hstarts : startsStatement before t = before.all fun t => endsStatement t.word := by
      cases before with
      | none => rfl
      | some last =>
        have hsame : ¬ last.position.line < t.position.line := by
          rw [hbefore last rfl, ht]
          exact Nat.lt_irrefl line
        simp only [startsStatement, hsame, decide_false, Bool.or_false]
        rfl
    have hdepth : depthAfter depth (.ofWord t.word) = depthAfter depth t := rfl
    have hhere : declarationAt ((t.word :: rest.map Token.word).map Token.ofWord) =
        declarationAt (t :: rest) := by
      rw [← declarationAt_bare (t :: rest), ← List.map_cons, List.map_map]
      rfl
    have hrest : declarationsFrom (depthAfter depth t) (some t) rest =
        wordsDeclare (depthAfter depth t) (endsStatement t.word) (rest.map Token.word) :=
      ih (by simpa using ht) fun u hu => htokens u (List.mem_cons_of_mem t hu)
    simp only [List.map_cons, declarationsFrom, wordsDeclare, hstarts, hdepth, hrest]
    rw [← List.map_cons, hhere]

/-- A text of one line declares what its words do. -/
theorem declarations_words {source : Text} {tokens : List Token} (hline : '\n' ∉ source)
    (hread : tokensOf source = .ok tokens) :
    declarations source = wordsDeclare 0 true (tokens.map Token.word) := by
  obtain ⟨-, htokens⟩ := tokensOf_eq_ok.mp hread
  have hfirst : ∀ t ∈ tokens, t.position.line = 1 := by
    rw [← htokens]
    exact Lexer.run_line (l := .new source) hline
  rw [declarations, hread]
  exact declarationsFrom_words (by simp) hfirst

/-! ### Balanced brackets -/

/-- `Balanced outer words`: each bracket is closed by one of its own kind, and the
    words outside of all brackets, with those that open one there, are `outer`. -/
inductive Balanced : (TokenKind × Text → Bool) → List (TokenKind × Text) → Prop
  | nil {outer : TokenKind × Text → Bool} : Balanced outer []
  | word {outer : TokenKind × Text → Bool} {word : TokenKind × Text}
      {rest : List (TokenKind × Text)} : word.1.opens = false → word.1.closes = false →
        outer word = true → Balanced outer rest → Balanced outer (word :: rest)
  | group {outer : TokenKind × Text → Bool} {bracket : Bracket} {left right : TokenKind × Text}
      {inner rest : List (TokenKind × Text)} : left.1 = .opening bracket → outer left = true →
        right.1 = .closing bracket → Balanced (fun _ => true) inner → Balanced outer rest →
          Balanced outer (left :: (inner ++ right :: rest))

namespace Balanced

variable {outer : TokenKind × Text → Bool} {words more : List (TokenKind × Text)}

theorem append (h : Balanced outer words) (hmore : Balanced outer more) :
    Balanced outer (words ++ more) := by
  induction h with
  | nil => exact hmore
  | word hopens hcloses houter _ ih => exact .word hopens hcloses houter (ih hmore)
  | group hleft houter hright hinner _ _ ih =>
    rw [List.cons_append, List.append_assoc, List.cons_append]
    exact .group hleft houter hright hinner (ih hmore)

theorem mono {wider : TokenKind × Text → Bool} (h : Balanced outer words)
    (hwider : ∀ word, outer word = true → wider word = true) : Balanced wider words := by
  induction h with
  | nil => exact .nil
  | word hopens hcloses houter _ ih => exact .word hopens hcloses (hwider _ houter) (ih hwider)
  | group hleft houter hright hinner _ _ ih =>
    exact .group hleft (hwider _ houter) hright hinner (ih hwider)

/-- Words without brackets are balanced. -/
theorem of_plain (h : ∀ word ∈ words,
    word.1.opens = false ∧ word.1.closes = false ∧ outer word = true) : Balanced outer words := by
  induction words with
  | nil => exact .nil
  | cons word rest ih =>
    obtain ⟨hopens, hcloses, houter⟩ := h word List.mem_cons_self
    exact .word hopens hcloses houter (ih fun w hw => h w (List.mem_cons_of_mem word hw))

end Balanced

/-! ### The walk over brackets -/

theorem depthAfter_plain {word : TokenKind × Text} (hopens : word.1.opens = false)
    (hcloses : word.1.closes = false) (depth : Nat) :
    depthAfter depth (.ofWord word) = depth := by
  obtain ⟨kind, text⟩ := word
  cases kind with
  | opening b => simp [TokenKind.opens] at hopens
  | closing b => simp [TokenKind.closes] at hcloses
  | _ => rfl

theorem wordsDeclare_opening {left : TokenKind × Text} {bracket : Bracket}
    (h : left.1 = .opening bracket) (depth : Nat) (fresh : Bool)
    (rest : List (TokenKind × Text)) :
    wordsDeclare depth fresh (left :: rest) =
      wordsDeclare (depth + 1) (endsStatement left) rest := by
  simp [wordsDeclare, depthAfter, h]

/-- A bracket that closes declares nothing, wherever it leads. -/
theorem wordsDeclare_closing {right : TokenKind × Text} {bracket : Bracket}
    (h : right.1 = .closing bracket) (depth : Nat) (fresh : Bool)
    (rest : List (TokenKind × Text)) :
    wordsDeclare (depth + 1) fresh (right :: rest) =
      wordsDeclare depth (endsStatement right) rest := by
  have hhere : declarationAt (.ofWord right :: rest.map Token.ofWord) = none := by
    simp [declarationAt, h]
  simp [wordsDeclare, depthAfter, h, hhere]

/-- Inside brackets nothing is declared. -/
theorem wordsDeclare_inside {outer : TokenKind × Text → Bool} {inner : List (TokenKind × Text)}
    (h : Balanced outer inner) {right : TokenKind × Text} {bracket : Bracket}
    (hright : right.1 = .closing bracket) (depth : Nat) (fresh : Bool)
    (rest : List (TokenKind × Text)) :
    wordsDeclare (depth + 1) fresh (inner ++ right :: rest) =
      wordsDeclare depth (endsStatement right) rest := by
  -- with the bracket that closes them general, a pair inside is a case of the same
  induction h generalizing depth fresh right bracket rest with
  | nil => exact wordsDeclare_closing hright depth fresh rest
  | word hopens hcloses _ _ ih =>
    have hdepth := depthAfter_plain hopens hcloses (depth + 1)
    simp only [List.cons_append, wordsDeclare, hdepth, Nat.add_eq_zero_iff, Nat.one_ne_zero,
      and_false, false_and, if_false, List.nil_append]
    exact ih hright depth _ rest
  | group hleft _ hclosing _ _ ihInner ihRest =>
    rw [List.cons_append, List.append_assoc, List.cons_append, wordsDeclare_opening hleft,
      ihInner hclosing, ihRest hright]

/-- A pair of brackets is passed over with all that it holds. -/
theorem wordsDeclare_group {inner : List (TokenKind × Text)} {left right : TokenKind × Text}
    {bracket : Bracket} (hleft : left.1 = .opening bracket) (hright : right.1 = .closing bracket)
    (h : Balanced (fun _ => true) inner) (depth : Nat) (fresh : Bool)
    (rest : List (TokenKind × Text)) :
    wordsDeclare depth fresh (left :: (inner ++ right :: rest)) =
      wordsDeclare depth (endsStatement right) rest := by
  rw [wordsDeclare_opening hleft, wordsDeclare_inside h hright]

/-- Whether a word neither ends a statement nor begins a block. -/
def withinStatement (word : TokenKind × Text) : Bool :=
  word.1 ≠ .semicolon && word.1 ≠ .opening .brace

theorem endsStatement_within {word : TokenKind × Text} (hcloses : word.1.closes = false)
    (hwithin : withinStatement word = true) : endsStatement word = false := by
  obtain ⟨kind, text⟩ := word
  cases kind with
  | semicolon => simp [withinStatement] at hwithin
  | closing b => simp [TokenKind.closes] at hcloses
  | _ => simp [endsStatement]

/-- Once a statement has begun, nothing is declared until it ends or has a block. -/
theorem wordsDeclare_within {words : List (TokenKind × Text)}
    (h : Balanced withinStatement words) (rest : List (TokenKind × Text)) :
    wordsDeclare 0 false (words ++ rest) = wordsDeclare 0 false rest := by
  generalize houter : withinStatement = outer at h
  induction h with
  | nil => rfl
  | @word _ word _ hopens hcloses hwithin _ ih =>
    subst houter
    simp only [List.cons_append, wordsDeclare, endsStatement_within hcloses hwithin,
      depthAfter_plain hopens hcloses, Bool.false_eq_true, and_false, if_false, List.nil_append]
    exact ih rfl
  | @group _ bracket left right _ _ hleft hwithin hright hinner _ _ ih =>
    subst houter
    have hgoesOn : endsStatement right = false := by
      cases bracket with
      | brace => simp [withinStatement, hleft] at hwithin
      | _ => simp [endsStatement, hright]
    rw [List.cons_append, List.append_assoc, List.cons_append,
      wordsDeclare_group hleft hright hinner, hgoesOn]
    exact ih rfl

end GroovyShell
