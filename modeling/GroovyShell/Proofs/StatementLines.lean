/-
  GroovyShell/Proofs/StatementLines.lean
  ======================================
  **The lines of a statement are kept until it is finished.**

  A run of the shell mixes lines of Groovy with commands, blank lines and
  failures.  Whatever the mix, the lines kept are the lines of Groovy since a
  statement was last finished or given up, and what is recorded in the end is
  those lines joined.  The invariant behind it (`Unfinished`) speaks of the kept
  lines only: each of them was Groovy when it was typed and left the statement
  unfinished.
-/
import GroovyShell.Proofs.Runs

namespace GroovyShell

/-! ### The lines kept -/

/-- The lines of Groovy since a statement was last finished or given up. -/
def pendingLines (history : List Exchange) : List Text :=
  ((history.reverse.takeWhile fun e => !e.endsStatement).reverse.filter Exchange.isGroovy).map
    Exchange.line

theorem pendingLines_concat (history : List Exchange) (e : Exchange) :
    pendingLines (history ++ [e]) =
      if e.endsStatement then []
      else if e.isGroovy then pendingLines history ++ [e.line]
      else pendingLines history := by
  by_cases hends : e.endsStatement = true
  · simp [pendingLines, hends]
  · by_cases hgroovy : e.isGroovy = true
    · simp [pendingLines, hends, hgroovy]
    · simp [pendingLines, hends, hgroovy]

namespace Repl

theorem exchange_passes {r : Repl} {line : Text} (hgroovy : r.role line ≠ .groovy)
    (hclear : r.role line ≠ .command (.ok .clear))
    (hresult : ∀ s, (r.process line).2 ≠ .ok (.recorded s)) :
    (r.exchange line).endsStatement = false ∧ (r.exchange line).isGroovy = false := by
  constructor
  · unfold Exchange.endsStatement
    split
    · rename_i hrecorded
      exact absurd hrecorded (hresult _)
    · rename_i hrole _
      exact absurd hrole hclear
    · rfl
  · unfold Exchange.isGroovy
    split
    · rename_i hrole
      exact absurd hrole hgroovy
    · rfl

/-- The lines kept after a further line, whatever it is taken for. -/
theorem process_pending {r : Repl} {history : List Exchange}
    (h : r.session.buffer = pendingLines history) (line : Text) :
    (r.process line).1.session.buffer = pendingLines (history ++ [r.exchange line]) := by
  rw [pendingLines_concat]
  cases r.effect line with
  | finishes _ _ hresult hbuffer =>
    simp [hbuffer, exchange, hresult, Exchange.endsStatement]
  | continues hgroovy _ hresult hbuffer =>
    simp [hbuffer, h, exchange, hgroovy, hresult, Exchange.endsStatement, Exchange.isGroovy]
  | clears hclear hbuffer =>
    have hends : (r.exchange line).endsStatement = true := by
      simp [exchange, hclear, process_command hclear, runCommand, Exchange.endsStatement]
    rw [hbuffer, hends]
    rfl
  | passes hgroovy hclear hresult hbuffer =>
    obtain ⟨hgoes, hother⟩ := exchange_passes hgroovy hclear hresult
    rw [hbuffer, h, hgoes, hother]
    rfl

end Repl

/-! ### Unfinished lines -/

namespace Text

theorem below_eq_joined (lines : List Text) (last : Text) :
    below lines last = joined ['\n'] (lines ++ [last]) := by
  induction lines with
  | nil => rfl
  | cons line lines ih =>
    rw [List.cons_append, joined_cons _ _ (by simp), ← ih]
    simp [below]

theorem trimStart_ne_nil {t : Text} (h : t.isBlankOnly = false) : t.trimStart ≠ [] := by
  induction t with
  | nil => simp [isBlankOnly] at h
  | cons c t ih =>
    by_cases hc : isBlank c = true
    · simp only [isBlankOnly, List.all_cons, hc, Bool.true_and] at h
      simpa [trimStart, hc] using ih h
    · simp [trimStart, hc]

theorem trimStart_append {a : Text} (h : a.isBlankOnly = false) (b : Text) :
    (a ++ b).trimStart = a.trimStart ++ b := by
  have hsome : ¬ (a.dropWhile isBlank).isEmpty = true := by
    simpa [List.isEmpty_iff, trimStart] using trimStart_ne_nil h
  rw [trimStart, List.dropWhile_append, if_neg hsome]
  rfl

end Text

/-- `Unfinished lines`: every line was Groovy when those before it were kept, and
    left the statement unfinished. -/
inductive Unfinished : List Text → Prop
  | none : Unfinished []
  | more {lines : List Text} {line : Text} :
      Unfinished lines → (∀ r : Repl, r.session.buffer = lines → r.role line = .groovy) →
        completeness (Text.below lines line) = .incomplete → Unfinished (lines ++ [line])

namespace Unfinished

theorem prefix_incomplete {lines front : List Text} (h : Unfinished lines) (hfront : front <+: lines)
    (hsome : front ≠ []) : completeness (Text.joined ['\n'] front) = .incomplete := by
  induction h with
  | none => exact absurd (List.prefix_nil.mp hfront) hsome
  | more _ _ hopen ih =>
    rcases List.prefix_concat_iff.mp hfront with rfl | hshort
    · rw [← Text.below_eq_joined]
      exact hopen
    · exact ih hshort

/-- The first of the lines is Groovy where nothing is kept. -/
theorem head_groovy {lines : List Text} (h : Unfinished lines) (hsome : lines ≠ []) :
    ∃ first rest, lines = first :: rest ∧
      ∀ r : Repl, r.session.buffer = [] → r.role first = .groovy := by
  induction h with
  | none => exact absurd rfl hsome
  | @more lines line hlines hgroovy _ ih =>
    rcases lines with _ | ⟨first, rest⟩
    · exact ⟨line, [], rfl, hgroovy⟩
    · obtain ⟨_, _, heq, hfirst⟩ := ih (by simp)
      obtain ⟨rfl, rfl⟩ := List.cons.inj heq
      exact ⟨first, rest ++ [line], rfl, hfirst⟩

/-- Typed again, the lines are kept again. -/
theorem replay {lines : List Text} (h : Unfinished lines) {q : Repl} (hq : q.session.buffer = []) :
    q.after lines = { q with session := { q.session with buffer := lines } } ∧
      (q.trace lines).map Exchange.result = List.replicate lines.length (.ok .buffered) := by
  induction h with
  | none =>
    obtain ⟨⟨buffer, _, _, _, _⟩, _, _, _⟩ := q
    subst hq
    exact ⟨rfl, rfl⟩
  | @more lines line _ hgroovy hopen ih =>
    obtain ⟨hafter, htrace⟩ := ih
    have hstep : (q.after lines).process line =
        ({ q with session := { q.session with buffer := lines ++ [line] } }, .ok .buffered) := by
      rw [hafter]
      exact Repl.process_incomplete (hgroovy _ rfl) hopen
    constructor
    · rw [Repl.after_concat, hstep]
    · rw [Repl.trace_concat, List.map_append, htrace, List.length_append]
      simp [Repl.exchange, hstep, List.replicate_succ']

end Unfinished

namespace Repl

/-- A line keeps the lines unfinished. -/
theorem process_unfinished {r : Repl} (h : Unfinished r.session.buffer) (line : Text) :
    Unfinished (r.process line).1.session.buffer := by
  cases r.effect line with
  | finishes _ _ _ hbuffer =>
    rw [hbuffer]
    exact .none
  | continues hgroovy hopen _ hbuffer =>
    rw [hbuffer]
    apply Unfinished.more h
    · intro q hq
      rw [role_congr hq, hgroovy]
    · exact hopen
  | clears _ hbuffer =>
    rw [hbuffer]
    exact .none
  | passes _ _ _ hbuffer =>
    rw [hbuffer]
    exact h

/-- A line that is Groovy where nothing is kept is so whatever follows in it. -/
theorem groovy_append {r : Repl} {first : Text} (hr : r.session.buffer = [])
    (h : r.role first = .groovy) (rest : Text) : r.role (first ++ rest) = .groovy := by
  unfold role isCommand at h ⊢
  rw [hr] at h ⊢
  simp only [List.isEmpty_nil, true_and, Bool.true_or, Bool.and_true] at h ⊢
  have hblank : first.isBlankOnly = false := by
    by_contra hblank
    rw [if_pos (by simpa using hblank)] at h
    simp at h
  have hcolon : isCommandLine first = false := by
    by_contra hcolon
    rw [if_neg (by simp [hblank]), if_pos (by simpa using hcolon)] at h
    simp at h
  have hstart := Text.trimStart_ne_nil hblank
  have hfirst : isCommandLine (first ++ rest) = false := by
    rw [← hcolon, isCommandLine, isCommandLine, Text.trimStart_append hblank]
    obtain ⟨c, t, ht⟩ := List.exists_cons_of_ne_nil hstart
    rw [ht]
    rfl
  simp [hblank, hfirst]

end Repl

/-! ### Recording -/

namespace Session

theorem declare_buffer (s : Session) (buffer : List Text) (d : Declaration) :
    ({ s with buffer } : Session).declare d = { s.declare d with buffer } := by
  rcases d with clause | ⟨name, _ | type⟩ | name | name
  · rfl
  · unfold declare
    dsimp only
    split
    · rfl
    · rfl
  · rfl
  · rfl
  · rfl

theorem record_buffer (s : Session) (buffer : List Text) (statement : Text) :
    ({ s with buffer } : Session).record statement = { s.record statement with buffer } := by
  unfold record
  induction declarations statement generalizing s with
  | nil => rfl
  | cons d ds ih => rw [List.foldl_cons, List.foldl_cons, declare_buffer, ih]

end Session

/-- The last line of a statement, typed behind the others or together with them,
    leads to the same. -/
theorem Unfinished.replay_last {lines : List Text} {line : Text} (h : Unfinished lines)
    (hgroovy : ∀ r : Repl, r.session.buffer = lines → r.role line = .groovy)
    (hdone : completeness (Text.below lines line) = .complete) {q : Repl}
    (hq : q.session.buffer = []) :
    (q.trace (lines ++ [line])).map Exchange.result =
        List.replicate lines.length (.ok .buffered) ++ [.ok (.recorded (Text.below lines line))] ∧
      q.process (Text.below lines line) =
        (q.after (lines ++ [line]), .ok (.recorded (Text.below lines line))) := by
  obtain ⟨hafter, htrace⟩ := h.replay hq
  have hlast : (q.after lines).process line =
      ({ q with session := (q.session.record (Text.below lines line)).clearBuffer },
        .ok (.recorded (Text.below lines line))) := by
    have hrole : (q.after lines).role line = .groovy := hgroovy _ (by rw [hafter])
    rw [hafter] at hrole ⊢
    rw [Repl.process_complete hrole hdone, Session.statementWith, Session.record_buffer]
    rfl
  have htogether : q.role (Text.below lines line) = .groovy := by
    by_cases hnone : lines = []
    · subst hnone
      exact hgroovy q hq
    · obtain ⟨first, rest, rfl, hfirst⟩ := h.head_groovy hnone
      have hbelow : Text.below (first :: rest) line = first ++ '\n' :: Text.below rest line := by
        simp [Text.below]
      rw [hbelow]
      exact Repl.groovy_append hq (hfirst q hq) _
  have hstatement : q.session.statementWith (Text.below lines line) = Text.below lines line := by
    rw [Session.statementWith, hq]
    rfl
  constructor
  · rw [Repl.trace_concat, List.map_append, htrace]
    simp [Repl.exchange, hlast]
  · rw [Repl.after_concat, hlast, Repl.process_complete htogether (by rw [hstatement]; exact hdone),
      hstatement]

/-! ### The whole run -/

/-- `KeepsLines history r`: after `history` the shell `r` keeps every line of the
    statement being typed, in order and once, and will record them all. -/
structure KeepsLines (history : List Exchange) (r : Repl) : Prop where
  /-- The lines kept are those typed since a statement was last finished or given up. -/
  kept : r.session.buffer = pendingLines history
  /-- Any number of them, from the first, is unfinished. -/
  unfinished : ∀ front, front <+: r.session.buffer → front ≠ [] →
    completeness (Text.joined ['\n'] front) = .incomplete
  /-- A line of Groovy is recorded with them when that finishes the statement. -/
  recorded_iff : ∀ line s, r.role line = .groovy →
    ((r.process line).2 = .ok (.recorded s) ↔
      s = Text.joined ['\n'] (r.session.buffer ++ [line]) ∧ completeness s = .complete)
  /-- Then nothing is kept any more. -/
  recorded_empties : ∀ line s, (r.process line).2 = .ok (.recorded s) →
    (r.process line).1.session.buffer = []
  /-- Any other line of Groovy is kept. -/
  otherwise_buffered : ∀ line, r.role line = .groovy →
    (∀ s, (r.process line).2 ≠ .ok (.recorded s)) → (r.process line).2 = .ok .buffered
  /-- Blank lines, commands but one and failures leave the lines as they are. -/
  undisturbed : ∀ line, r.role line ≠ .groovy → r.role line ≠ .command (.ok .clear) →
    (r.process line).1.session.buffer = r.session.buffer
  /-- A statement typed anew, line by line or at once, is recorded the same. -/
  replay : ∀ line s, (r.process line).2 = .ok (.recorded s) →
    ∀ q : Repl, q.session.buffer = [] →
      (q.trace (r.session.buffer ++ [line])).map Exchange.result =
          List.replicate r.session.buffer.length (.ok .buffered) ++ [.ok (.recorded s)] ∧
        q.process s = (q.after (r.session.buffer ++ [line]), .ok (.recorded s))

namespace Repl

theorem keepsLines {r : Repl} {history : List Exchange}
    (hkept : r.session.buffer = pendingLines history) (h : Unfinished r.session.buffer) :
    KeepsLines history r where
  kept := hkept
  unfinished front hfront hsome := h.prefix_incomplete hfront hsome
  recorded_iff line s hgroovy := by
    rw [← Text.below_eq_joined]
    exact recorded_iff hgroovy
  recorded_empties line s hrecorded := by
    have hgroovy := groovy_of_recorded hrecorded
    obtain ⟨rfl, hdone⟩ := (recorded_iff hgroovy).mp hrecorded
    rw [process_complete hgroovy hdone]
    rfl
  otherwise_buffered line hgroovy hnot := by
    cases hstatement : completeness (r.session.statementWith line) with
    | complete => exact absurd ((recorded_iff hgroovy).mpr ⟨rfl, hstatement⟩) (hnot _)
    | incomplete => rw [process_verdict hgroovy, hstatement]
  undisturbed line hgroovy hclear := process_keeps hgroovy hclear
  replay line s hrecorded q hq := by
    have hgroovy := groovy_of_recorded hrecorded
    obtain ⟨rfl, hdone⟩ := (recorded_iff hgroovy).mp hrecorded
    apply h.replay_last _ hdone hq
    intro p hp
    rw [role_congr hp, hgroovy]

/-- What is kept agrees with what was typed, and is unfinished, however the lines
    are mixed. -/
theorem after_keeps (completion : CompletionSettings) (color : Bool) (inputs : List Text) :
    ((opened completion color).after inputs).session.buffer =
        pendingLines ((opened completion color).trace inputs) ∧
      Unfinished ((opened completion color).after inputs).session.buffer := by
  induction inputs using List.reverseRecOn with
  | nil => exact ⟨rfl, .none⟩
  | append_singleton inputs line ih =>
    obtain ⟨hkept, hunfinished⟩ := ih
    rw [after_concat, trace_concat]
    exact ⟨process_pending hkept line, process_unfinished hunfinished line⟩

end Repl

/-- **No line of a statement is lost.**  Whatever is typed into a new shell, it
    keeps the lines of the statement being typed and records them together. -/
theorem statement_lines_kept (completion : CompletionSettings) (color : Bool)
    (inputs : List Text) :
    KeepsLines ((Repl.opened completion color).trace inputs)
      ((Repl.opened completion color).after inputs) := by
  obtain ⟨hkept, hunfinished⟩ := Repl.after_keeps completion color inputs
  exact Repl.keepsLines hkept hunfinished

example :
    ((Repl.opened ⟨true, true, true, true, true, true, false⟩ false).trace
        ["".toList, "x = [".toList, ":d".toList, "1]".toList]).map (fun e => e.result.toOption) =
      [some .nothing, some .buffered, some (.output "000> x = ["),
        some (.recorded "x = [\n1]".toList)] := by
  decide +kernel

end GroovyShell
