/-
  GroovyShell/Proofs/LinesBelow.lean
  ==================================
  **What is typed below a finished text is read as if it stood alone.**

  A statement is kept as its lines, and a finished one leaves nothing behind
  that could change how the next is read: no comment, string or interpolation is
  open, and a newline is as good as the end of the text for whatever looks past a
  token.  The second text then sees a lexer that differs from a new one in two
  things only, the line on which it begins and that it no longer stands at the
  beginning, where alone a `#!` line is skipped (`Lexer.Below`).
-/
import GroovyShell.Proofs.Rereading

namespace GroovyShell

/-! ### Places further down -/

/-- The place so many lines further down. -/
def Position.lower (lines : Nat) (p : Position) : Position := ⟨p.line + lines, p.column⟩

def Token.lower (lines : Nat) (t : Token) : Token :=
  { t with position := t.position.lower lines }

def LexError.lower (lines : Nat) (e : LexError) : LexError :=
  { e with position := e.position.map (Position.lower lines) }

/-- The token or the failure that a reading leads to, so many lines further down. -/
def lowered (lines : Nat) : Except LexError Token → Except LexError Token
  | .ok token => .ok (token.lower lines)
  | .error e => .error (e.lower lines)

theorem Position.lower_after (lines : Nat) (p : Position) (t : Text) :
    (p.lower lines).after t = (p.after t).lower lines := by
  induction t generalizing p with
  | nil => rfl
  | cons c t ih =>
    have hstep : (p.lower lines).step c = (p.step c).lower lines := by
      unfold step lower
      split
      · simp only [Position.mk.injEq, and_true]
        omega
      · rfl
    rw [after, List.foldl_cons, hstep, ← after, ih]
    rfl

/-! ### The same text further down -/

namespace Lexer

/-- `l.Below lines low`: `low` is to read what `l` is, so many lines further down.
    A `#!` line at the very beginning is skipped by `l` alone, so there is none. -/
structure Below (lines : Nat) (l low : Lexer) : Prop where
  rest : low.rest = l.rest
  nesting : low.nesting = l.nesting
  position : low.position = l.position.lower lines
  inside : low.offset ≠ 0
  unmarked : l.offset = 0 → l.rest.beginsWith ['#', '!'] = false

theorem Below.skip {lines : Nat} {l low : Lexer} (h : Below lines l low) (n : Nat) :
    Below lines (l.skip n) (low.skip n) where
  rest := by simp only [Lexer.skip, h.rest]
  nesting := h.nesting
  position := by simp only [Lexer.skip, h.rest, h.position, Position.lower_after]
  inside := by
    have hinside := h.inside
    simp only [Lexer.skip]
    omega
  unmarked hstart := by
    simp only [Lexer.skip, Nat.add_eq_zero_iff, List.length_eq_zero_iff] at hstart ⊢
    obtain ⟨hoffset, htaken⟩ := hstart
    have hall := List.take_append_drop n l.rest
    rw [htaken, List.nil_append] at hall
    rw [hall]
    exact h.unmarked hoffset

theorem Below.nested {lines : Nat} {l low : Lexer} (h : Below lines l low)
    (nesting : List Interpolation) :
    Below lines { l with nesting } { low with nesting } :=
  ⟨h.rest, rfl, h.position, h.inside, h.unmarked⟩

theorem Below.gap {lines : Nat} {l low : Lexer} (h : Below lines l low) :
    gap (low.offset == 0) low.rest = GroovyShell.gap (l.offset == 0) l.rest := by
  have hlow : (low.offset == 0) = false := by simpa using h.inside
  rw [hlow, h.rest]
  by_cases hstart : l.offset = 0
  · rw [hstart]
    exact (gapFrom_opening (h.unmarked hstart) 0).symm
  · have hl : (l.offset == 0) = false := by simpa using hstart
    rw [hl]

/-- A reading further down yields the same further down. -/
theorem Below.next {lines : Nat} {l low : Lexer} (h : Below lines l low) :
    low.next.1 = lowered lines l.next.1 ∧ Below lines l.next.2 low.next.2 := by
  unfold Lexer.next
  rw [h.gap]
  split
  · rename_i start _
    refine ⟨?_, ?_⟩
    · simp only [lowered, LexError.lower, LexError.at, Option.map_some, (h.skip start).position]
    · rw [h.rest]
      exact h.skip _
  · rename_i length _
    have hhere := h.skip length
    simp only [hhere.rest, hhere.nesting]
    split
    · rename_i kind n nesting _
      exact ⟨by simp only [lowered, Token.lower, hhere.position], (hhere.skip n).nested nesting⟩
    · rename_i n nesting _
      refine ⟨?_, (hhere.skip n).nested nesting⟩
      simp only [lowered, LexError.lower, LexError.at, Option.map_some, hhere.position]
    · refine ⟨?_, hhere⟩
      simp only [lowered, LexError.lower, LexError.at, Option.map_some, hhere.position]

/-- A run further down yields the same further down. -/
theorem Below.run {lines : Nat} {l low : Lexer} (h : Below lines l low) :
    low.run.tokens = l.run.tokens.map (Token.lower lines) ∧
      low.run.ending = lowered lines l.run.ending ∧
      low.run.lexer.nesting = l.run.lexer.nesting := by
  fun_induction Lexer.run l generalizing low with
  | case1 l e after hnext =>
    obtain ⟨hresult, hafter⟩ := h.next
    rw [hnext] at hresult hafter
    rw [run_error (Prod.ext hresult rfl)]
    exact ⟨rfl, rfl, hafter.nesting⟩
  | case2 l token after hnext atEnd =>
    obtain ⟨hresult, hafter⟩ := h.next
    rw [hnext] at hresult hafter
    rw [run_end (Prod.ext hresult rfl) atEnd]
    exact ⟨rfl, rfl, hafter.nesting⟩
  | case3 l token after hnext inside scan =>
    rename_i ih
    obtain ⟨hresult, hafter⟩ := h.next
    rw [hnext] at hresult hafter
    rw [run_token (Prod.ext hresult rfl) inside]
    obtain ⟨htokens, hending, hnesting⟩ := ih hafter
    exact ⟨by rw [List.map_cons, htokens], hending, hnesting⟩

end Lexer

/-! ### A text below a finished one -/

/-- A gap that ends a text goes on with a newline. -/
theorem GapText.newline {gap : Text} (h : GapText [] gap) (rest : Text) :
    GapText rest (gap ++ ['\n']) := by
  induction h with
  | none => exact .blank (by decide) .none
  | blank hc _ ih => exact .blank hc ih
  | @lineComment body t hbody hend _ ih =>
    rw [List.append_assoc]
    refine .lineComment hbody ?_ ih
    intro c hc
    rcases t with _ | ⟨d, t⟩
    · exact (Option.mem_some.mp hc).symm
    · exact hend c hc
  | @blockComment body t hbody _ ih =>
    have hassoc : '/' :: '*' :: body ++ '*' :: '/' :: t ++ ['\n'] =
        '/' :: '*' :: body ++ '*' :: '/' :: (t ++ ['\n']) := by simp
    rw [hassoc]
    exact .blockComment hbody ih

theorem IsGap.newline {first : Bool} {gap : Text} (h : IsGap first [] gap) (rest : Text) :
    IsGap first rest (gap ++ ['\n']) := by
  cases h with
  | plain h => exact .plain (h.newline rest)
  | @hashBang body t hfirst hbody hend h =>
    rw [List.append_assoc]
    refine .hashBang hfirst hbody ?_ (h.newline rest)
    intro c hc
    rcases t with _ | ⟨d, t⟩
    · exact (Option.mem_some.mp hc).symm
    · exact hend c hc

namespace Lexer

/-- Behind a text that is read to its end, a further text on a new line is read
    as if it stood alone. -/
theorem run_extend_line {l : Lexer} {b : Text} {eof : Token} {lines : Nat}
    (hend : l.run.ending = .ok eof) (hclosed : l.run.lexer.nesting = [])
    (hb : b.beginsWith ['#', '!'] = false)
    (hplace : l.position.after (l.rest ++ ['\n']) = Position.start.lower lines) :
    ∃ low, (new b).Below lines low ∧
      (l.extend ('\n' :: b)).run = { low.run with tokens := l.run.tokens ++ low.run.tokens } := by
  fun_induction Lexer.run l with
  | case1 l e after hnext => simp at hend
  | case2 l token after hnext atEnd =>
    obtain ⟨gap, hreads⟩ := reads_of_next hnext
    obtain ⟨hrest, hgap, hnesting⟩ := hreads.atEnd atEnd
    have hmore : (l.extend ('\n' :: b)).rest = (gap ++ ['\n']) ++ b := by
      simp [extend, hrest]
    refine ⟨(l.extend ('\n' :: b)).skip (gap ++ ['\n']).length, ?_, ?_⟩
    · refine ⟨?_, hnesting.symm.trans hclosed, ?_, ?_, fun _ => hb⟩
      · simp only [skip, hmore, List.drop_left, new]
      · simp only [skip, hmore, List.take_left]
        rw [← hrest]
        exact hplace
      · simp only [skip, hmore, List.take_left]
        simp
    · rw [run_congr (next_through hmore (hgap.newline b) (by simp))]
      simp
  | case3 l token after hnext inside scan ih =>
    obtain ⟨gap, hreads⟩ := reads_of_next hnext
    have hglance := Text.glance_append_blank after.rest (show isBlank '\n' = true by decide) b
    have hmore := (hreads.extend inside hglance).next
    have hafter : after.position.after (after.rest ++ ['\n']) = Position.start.lower lines := by
      rw [← hplace, hreads.position, hreads.rest]
      simp only [Position.after_append]
    obtain ⟨low, hbelow, hrun⟩ := ih hend hclosed hafter
    refine ⟨low, hbelow, ?_⟩
    rw [run_token hmore inside, hrun]
    rfl

end Lexer

/-- **Lines are read one by one.**  Where a text ends with nothing left open, a
    text on the next line is read as if it stood alone, only further down. -/
theorem lexAll_below {a b : Text} {eof : Token} (hend : (lexAll a).ending = .ok eof)
    (hclosed : (lexAll a).lexer.nesting = []) (hb : b.beginsWith ['#', '!'] = false) :
    let lines := 1 + a.count '\n'
    (lexAll (a ++ '\n' :: b)).tokens =
        (lexAll a).tokens ++ (lexAll b).tokens.map (Token.lower lines) ∧
      (lexAll (a ++ '\n' :: b)).ending = lowered lines (lexAll b).ending ∧
      (lexAll (a ++ '\n' :: b)).lexer.nesting = (lexAll b).lexer.nesting := by
  intro lines
  have hplace : Position.start.after (a ++ ['\n']) = Position.start.lower lines := by
    have hbehind := Position.behind_append [] (a ++ ['\n'])
    rw [List.nil_append, Position.behind_nil] at hbehind
    rw [← hbehind]
    simp [Position.behind, Position.start, Position.lower, Text.lastPart_concat, lines,
      Nat.add_comm]
  obtain ⟨low, hbelow, hrun⟩ := Lexer.run_extend_line hend hclosed hb hplace
  obtain ⟨htokens, hending, hnesting⟩ := hbelow.run
  have hmore : lexAll (a ++ '\n' :: b) = ((Lexer.new a).extend ('\n' :: b)).run := rfl
  rw [hmore, hrun]
  refine ⟨?_, hending, hnesting⟩
  rw [htokens]
  rfl

/-- A note at the end of a line and a comment that is never closed on the next. -/
theorem lexAll_below_openComment :
    let a : Text := "s = \"\"\"a\n$\x7bb\x7d\"\"\" // c".toList
    let b : Text := "d.e /* f".toList
    (lexAll a).ending = .ok ⟨.endOfInput, [], ⟨2, 13⟩⟩ ∧ (lexAll a).lexer.nesting = [] ∧
      b.beginsWith ['#', '!'] = false ∧
      (lexAll (a ++ '\n' :: b)).tokens =
        (lexAll a).tokens ++ (lexAll b).tokens.map (Token.lower 2) ∧
      (lexAll (a ++ '\n' :: b)).ending = .error (.at .unterminatedComment ⟨3, 5⟩) ∧
      (lexAll (a ++ '\n' :: b)).lexer.nesting = [] := by
  intro a b
  have hend : (lexAll a).ending = .ok ⟨.endOfInput, [], ⟨2, 13⟩⟩ := by decide +kernel
  have hclosed : (lexAll a).lexer.nesting = [] := by decide +kernel
  have hb : b.beginsWith ['#', '!'] = false := by decide +kernel
  obtain ⟨htokens, hending, hnesting⟩ := lexAll_below hend hclosed hb
  have hcount : 1 + a.count '\n' = 2 := by decide +kernel
  have hcomment : (lexAll b).ending = .error (.at .unterminatedComment ⟨1, 5⟩) := by decide +kernel
  have hnone : (lexAll b).lexer.nesting = [] := by decide +kernel
  simp only [hcount] at htokens hending
  exact ⟨hend, hclosed, hb, htokens, by rw [hending, hcomment]; rfl, by rw [hnesting, hnone]⟩

end GroovyShell
