/-
  GroovyShell/Lexing/Lexer.lean
  =============================
  **Cutting a text into tokens, one at a time or all at once.**

  The lexer is fed the statement being typed, up to the cursor, which is almost
  always an unfinished program.  It therefore reports only what it cannot read:
  an open bracket or interpolation is left to the caller to judge.

  A lexer is a text that is still to be read, with the place where that rest
  begins and the interpolations open there.  Each step drops a gap and an item
  from the rest and moves the place along the very characters dropped, so
  texts and places of tokens agree with the source by construction.
-/
import GroovyShell.Lexing.Gap
import GroovyShell.Lexing.Item
import GroovyShell.Lexing.LexError

namespace GroovyShell

structure Lexer where
  /-- What is still to be read. -/
  rest : Text
  /-- How many characters have been read. -/
  offset : Nat
  /-- The place where the rest begins. -/
  position : Position
  /-- The open interpolations, innermost first. -/
  nesting : List Interpolation
deriving DecidableEq, Repr

namespace Lexer

def new (source : Text) : Lexer := ⟨source, 0, .start, []⟩

/-- The lexer after it has read `n` more characters. -/
def skip (l : Lexer) (n : Nat) : Lexer :=
  { l with
    rest := l.rest.drop n
    offset := l.offset + (l.rest.take n).length
    position := l.position.after (l.rest.take n) }

@[simp] theorem skip_zero (l : Lexer) : l.skip 0 = l := by
  simp [skip, Position.after]

theorem skip_add (l : Lexer) (m n : Nat) : l.skip (m + n) = (l.skip m).skip n := by
  simp only [skip, List.drop_drop, ← Position.after_append, ← List.take_add, Nat.add_assoc,
    ← List.length_append]

/-- Read one token.  At the end of the input this is a token without text, however
    often it is asked for.  After a failure the lexer stands where reading stopped. -/
def next (l : Lexer) : Except LexError Token × Lexer :=
  match gap (l.offset == 0) l.rest with
  | .openComment start =>
    (.error (.at .unterminatedComment (l.skip start).position), l.skip l.rest.length)
  | .closed length =>
    let l := l.skip length
    match itemAt l.nesting l.rest with
    | .token kind length nesting =>
      (.ok ⟨kind, l.rest.take length, l.position⟩, { l.skip length with nesting })
    | .unterminated length nesting =>
      (.error (.at .unterminatedString l.position), { l.skip length with nesting })
    | .unexpected c => (.error (.at (.unexpectedChar c) l.position), l)

/-! ### Running to the end -/

theorem next_rest_lt {l after : Lexer} {token : Token} (h : l.next = (.ok token, after))
    (inside : token.kind ≠ .endOfInput) : after.rest.length < l.rest.length := by
  unfold next at h
  split at h
  · simp at h
  · rename_i gapLength _
    have shrinks : (l.skip gapLength).rest.length ≤ l.rest.length := by simp [skip]
    simp only at h
    split at h
    · rename_i kind length nesting hi
      simp only [Prod.mk.injEq, Except.ok.injEq] at h
      obtain ⟨rfl, rfl⟩ := h
      have taken := itemAt_token hi inside
      simp only [skip, List.length_drop] at taken shrinks ⊢
      omega
    · simp at h
    · simp at h

/-- What reading a text to its end yields: the tokens, then the token for the end
    of the input or the failure that stopped the lexer, and the lexer as it then
    stands. -/
structure Scan where
  tokens : List Token
  ending : Except LexError Token
  lexer : Lexer

/-- Read tokens until the input ends or cannot be read. -/
def run (l : Lexer) : Scan :=
  match _h : l.next with
  | (.error e, after) => ⟨[], .error e, after⟩
  | (.ok token, after) =>
    if _inside : token.kind = .endOfInput then ⟨[], .ok token, after⟩
    else
      let scan := run after
      { scan with tokens := token :: scan.tokens }
termination_by l.rest.length
decreasing_by exact next_rest_lt _h _inside

end Lexer

def lexAll (source : Text) : Lexer.Scan := (Lexer.new source).run

/-- The tokens of a text, the end of the input not included. -/
def tokensOf (source : Text) : Except LexError (List Token) :=
  let scan := lexAll source
  match scan.ending with
  | .ok _ => .ok scan.tokens
  | .error e => .error e

end GroovyShell
