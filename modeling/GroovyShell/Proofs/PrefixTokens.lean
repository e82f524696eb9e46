/-
  GroovyShell/Proofs/PrefixTokens.lean
  ====================================
  **What has been typed so far tells nearly all tokens.**

  A text that is still being typed is read before it is finished.  Whatever comes
  to stand behind it, all of its tokens but the last three are the tokens of the
  finished text too: behind any other token stand three more tokens, hence three
  characters, and no further does a glance behind a token go.
-/
import GroovyShell.Proofs.Rereading
import Mathlib.Data.List.DropRight

namespace GroovyShell

namespace Lexer

/-- Every token takes at least one character. -/
theorem run_length_le (l : Lexer) : l.run.tokens.length ≤ l.rest.length := by
  fun_induction run l with
  | case1 l e after hnext => simp
  | case2 l token after hnext atEnd => simp
  | case3 l token after hnext inside scan ih =>
    have hshorter := next_rest_lt hnext inside
    have hscan : scan.tokens.length ≤ after.rest.length := ih
    rw [List.length_cons]
    omega

/-- Dropping the last of some tokens keeps a first token if enough follow it. -/
theorem rdrop_cons {n : Nat} {token : Token} {tokens : List Token} (h : n ≤ tokens.length) :
    (token :: tokens).rdrop n = token :: tokens.rdrop n := by
  rw [List.rdrop, List.rdrop, List.length_cons, Nat.succ_sub h, List.take_succ_cons]

/-- However the text goes on, all tokens but the last three are read the same. -/
theorem run_extend_prefix (l : Lexer) (more : Text) :
    l.run.tokens.rdrop 3 <+: (l.extend more).run.tokens := by
  fun_induction run l with
  | case1 l e after hnext => simp [List.rdrop]
  | case2 l token after hnext atEnd => simp [List.rdrop]
  | case3 l token after hnext inside scan ih =>
    have hfew : scan.tokens.length ≤ after.rest.length := run_length_le after
    by_cases hthree : 3 ≤ scan.tokens.length
    · -- three more tokens are three more characters, which is as far as any glance goes
      have hglance := Text.glance_append_of_length (Nat.le_trans hthree hfew) more
      obtain ⟨gap, hreads⟩ := reads_of_next hnext
      have hmore := (hreads.extend inside hglance).next
      rw [run_token hmore inside, rdrop_cons hthree]
      exact (List.prefix_cons_inj token).mpr ih
    · have hnone : (token :: scan.tokens).rdrop 3 = [] := by
        rw [List.rdrop, List.length_cons, Nat.sub_eq_zero_of_le (by omega), List.take_zero]
      rw [hnone]
      exact List.nil_prefix

end Lexer

/-- **What has been typed tells the tokens but for the last three.**  However a
    text goes on, all its tokens but three stay as they are, and as few as two
    may not: `1e+` is three tokens, and with a digit behind it is one. -/
theorem tokens_of_prefix :
    (∀ front rest : Text,
        (lexAll front).tokens.rdrop 3 <+: (lexAll (front ++ rest)).tokens) ∧
      (∀ n, (∀ front rest : Text,
        (lexAll front).tokens.rdrop n <+: (lexAll (front ++ rest)).tokens) → 3 ≤ n) ∧
      (lexAll "1e+".toList).tokens.map Token.text = ["1".toList, "e".toList, "+".toList] ∧
      (lexAll "1e+5".toList).tokens.map Token.text = ["1e+5".toList] := by
  refine ⟨?_, ?_, by decide +kernel, by decide +kernel⟩
  · intro front rest
    exact Lexer.run_extend_prefix (.new front) rest
  · intro n hn
    by_contra hfew
    have hcut := hn "1e+".toList "5".toList
    revert hcut
    have hn' : n = 0 ∨ n = 1 ∨ n = 2 := by omega
    rcases hn' with rfl | rfl | rfl <;> decide +kernel

end GroovyShell
