/-
  GroovyShell/Proofs/Respacing.lean
  =================================
  **Tokens written apart are read as the same tokens.**

  A text that can be read is written anew: the texts of its tokens, with white
  space of any kind between them.  Every token is then read as it was, since
  white space shows a glance behind a token no more than the end of the text
  does, and a part of an interpolated string, being one token, keeps its own
  blanks.
-/
import GroovyShell.Proofs.Spelling

namespace GroovyShell

/-! ### Words written apart -/

/-- Words one after another, with some white space between neighbours. -/
inductive Spaced : List Text → Text → Prop
  | none : Spaced [] []
  | one (word : Text) : Spaced [word] word
  | more {next : Text} {words : List Text} {t : Text} (word gap : Text) : gap ≠ [] →
      gap.isBlankOnly = true → Spaced (next :: words) t →
      Spaced (word :: next :: words) (word ++ (gap ++ t))

/-- Behind a word written apart there is nothing to be seen. -/
theorem Spaced.unfold {word : Text} {words : List Text} {t : Text} (h : Spaced (word :: words) t) :
    ∃ gap rest, t = word ++ (gap ++ rest) ∧ gap.isBlankOnly = true ∧
      (gap ++ rest).glance = [] ∧ Spaced words rest := by
  cases h with
  | one => exact ⟨[], [], by simp, rfl, rfl, .none⟩
  | @more next words t word gap hsome hgap h =>
    refine ⟨gap, t, rfl, hgap, ?_, h⟩
    obtain ⟨c, tail, rfl⟩ := List.exists_cons_of_ne_nil hsome
    simp only [Text.isBlankOnly, List.all_cons, Bool.and_eq_true] at hgap
    exact Text.glance_blank hgap.1 _

namespace Lexer

/-- The tokens that are read up to the end, written apart, spell themselves. -/
theorem spelled_of_run {l : Lexer} {eof : Token} (hend : l.run.ending = .ok eof) {t : Text}
    (hspaced : Spaced (l.run.tokens.map Token.text) t) :
    Spelled l.run.lexer.nesting l.nesting t (l.run.tokens.map Token.word) := by
  fun_induction Lexer.run l generalizing t with
  | case1 l e after hnext => simp at hend
  | case2 l token after hnext atEnd =>
    obtain ⟨gap, hreads⟩ := reads_of_next hnext
    obtain ⟨-, -, hnesting⟩ := hreads.atEnd atEnd
    cases hspaced
    rw [hnesting]
    exact .finished
  | case3 l token after hnext inside scan =>
    rename_i ih
    obtain ⟨gap, hreads⟩ := reads_of_next hnext
    obtain ⟨space, rest, rfl, hspace, hunseen, hrest⟩ := hspaced.unfold
    have hglance : (space ++ rest).glance <+: after.rest.glance := by
      rw [hunseen]
      exact List.nil_prefix
    refine .token inside ?_ (itemAt_of_glance hreads.item inside hglance)
      ((ih hend hrest).blanks hspace)
    exact fun hgap => hreads.ends (hgap.of_glance hglance (hreads.text_ne_nil inside))

end Lexer

/-- **Tokens written apart are read as the same tokens**, whatever white space
    stands between them and wherever they stood before. -/
theorem tokensOf_spaced {source text : Text} {tokens : List Token}
    (h : tokensOf source = .ok tokens) (hspaced : Spaced (tokens.map Token.text) text) :
    ∃ again, tokensOf text = .ok again ∧ again.map Token.word = tokens.map Token.word := by
  obtain ⟨⟨eof, hend⟩, rfl⟩ := tokensOf_eq_ok.mp h
  have hspelled : Spelled _ [] text _ := Lexer.spelled_of_run hend hspaced
  obtain ⟨hagain, hwords, -⟩ := Lexer.run_of_spelled hspelled (l := .new text) rfl rfl
  exact ⟨_, tokensOf_eq_ok.mpr ⟨hagain, rfl⟩, hwords⟩

/-- An interpolated string, its parts and its code written apart. -/
theorem tokensOf_spaced_interpolation :
    let source : Text := "f\"a $\x7bb\x7d c\"// d".toList
    let text : Text := "f\n\"a $\x7b\t b \x7d c\"".toList
    let tokens : List Token :=
      [ ⟨.name, "f".toList, ⟨1, 1⟩⟩, ⟨.stringStart, "\"a $\x7b".toList, ⟨1, 2⟩⟩,
        ⟨.name, "b".toList, ⟨1, 7⟩⟩, ⟨.stringEnd, "\x7d c\"".toList, ⟨1, 8⟩⟩ ]
    tokensOf source = .ok tokens ∧ Spaced (tokens.map Token.text) text ∧
      ∃ again, tokensOf text = .ok again ∧ again.map Token.word = tokens.map Token.word := by
  intro source text tokens
  have h : tokensOf source = .ok tokens := by decide +kernel
  have hspaced : Spaced (tokens.map Token.text) text := by
    have htext : text = "f".toList ++ ("\n".toList ++ ("\"a $\x7b".toList ++ ("\t ".toList ++
        ("b".toList ++ (" ".toList ++ "\x7d c\"".toList))))) := by decide +kernel
    rw [htext]
    refine .more _ _ (by decide +kernel) (by decide +kernel) ?_
    refine .more _ _ (by decide +kernel) (by decide +kernel) ?_
    exact .more _ _ (by decide +kernel) (by decide +kernel) (.one _)
  exact ⟨h, hspaced, tokensOf_spaced h hspaced⟩

end GroovyShell
