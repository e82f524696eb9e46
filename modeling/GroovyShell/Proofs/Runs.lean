/-
  GroovyShell/Proofs/Runs.lean
  ============================
  **Runs of the shell, line by line.**

  A line is ignored, or it is a command, or it is Groovy, and which of these it
  is depends on the lines kept alone.  For each role one equation says what
  processing the line does.  A run is a list of lines; its trace tells for every
  line the role and the result.
-/
import GroovyShell.Shell.Repl
import Mathlib.Data.List.Infix

namespace GroovyShell

/-! ### What a line is taken for -/

inductive LineRole where
  /-- Nothing has been typed, and the line is blank. -/
  | ignored
  /-- A command, or what is wrong with it. -/
  | command (reading : Except CommandError Command)
  | groovy

namespace Repl

def role (r : Repl) (line : Text) : LineRole :=
  if r.session.buffer.isEmpty ∧ line.isBlankOnly then .ignored
  else if r.isCommand line then .command (readCommand line)
  else .groovy

theorem process_ignored {r : Repl} {line : Text} (h : r.role line = .ignored) :
    r.process line = (r, .ok .nothing) := by
  unfold role at h
  unfold process
  split at h
  · rename_i hblank
    rw [if_pos hblank]
  · split at h <;> simp at h

theorem process_command {r : Repl} {line : Text} {reading : Except CommandError Command}
    (h : r.role line = .command reading) :
    r.process line =
      match reading with
      | .ok command => ((r.runCommand command).1, .ok (r.runCommand command).2)
      | .error e => (r, .error e) := by
  unfold role at h
  unfold process
  split at h
  · simp at h
  · rename_i hblank
    split at h
    · rename_i hcommand
      simp only [LineRole.command.injEq] at h
      rw [if_neg hblank, if_pos hcommand, h]
      cases reading <;> rfl
    · simp at h

theorem process_groovy {r : Repl} {line : Text} (h : r.role line = .groovy) :
    r.process line = ((r.continueStatement line).1, .ok (r.continueStatement line).2) := by
  unfold role at h
  unfold process
  split at h
  · simp at h
  · rename_i hblank
    split at h
    · simp at h
    · rename_i hcommand
      rw [if_neg hblank, if_neg hcommand]

/-- What a line is taken for depends on the lines kept and on nothing else. -/
theorem role_congr {r q : Repl} (h : r.session.buffer = q.session.buffer) (line : Text) :
    r.role line = q.role line := by
  unfold role isCommand
  rw [h]

theorem runCommand_keeps (r : Repl) {command : Command} (h : command ≠ .clear) :
    (r.runCommand command).1.session.buffer = r.session.buffer := by
  cases command with
  | clear => exact absurd rfl h
  | purge target => cases target <;> rfl
  | _ => rfl

/-- Only Groovy and the command that clears them change the lines kept. -/
theorem process_keeps {r : Repl} {line : Text} (hgroovy : r.role line ≠ .groovy)
    (hclear : r.role line ≠ .command (.ok .clear)) :
    (r.process line).1.session.buffer = r.session.buffer := by
  rcases h : r.role line with _ | reading | _
  · rw [process_ignored h]
  · rw [process_command h]
    cases reading with
    | error e => rfl
    | ok command =>
      apply runCommand_keeps
      rintro rfl
      exact hclear h
  · exact absurd h hgroovy

theorem process_clear {r : Repl} {line : Text} (h : r.role line = .command (.ok .clear)) :
    (r.process line).1.session.buffer = [] := by
  rw [process_command h]
  rfl

theorem process_incomplete {r : Repl} {line : Text} (h : r.role line = .groovy)
    (hopen : completeness (r.session.statementWith line) = .incomplete) :
    r.process line = ({ r with session := r.session.pushLine line }, .ok .buffered) := by
  rw [process_groovy h, continueStatement, hopen]

theorem process_complete {r : Repl} {line : Text} (h : r.role line = .groovy)
    (hdone : completeness (r.session.statementWith line) = .complete) :
    r.process line =
      ({ r with session := (r.session.record (r.session.statementWith line)).clearBuffer },
        .ok (.recorded (r.session.statementWith line))) := by
  rw [process_groovy h, continueStatement, hdone]

/-- What a line of Groovy leads to. -/
theorem process_verdict {r : Repl} {line : Text} (h : r.role line = .groovy) :
    (r.process line).2 =
      .ok (match completeness (r.session.statementWith line) with
        | .incomplete => .buffered
        | .complete => .recorded (r.session.statementWith line)) := by
  cases hstatement : completeness (r.session.statementWith line) with
  | complete => rw [process_complete h hstatement]
  | incomplete => rw [process_incomplete h hstatement]

theorem recorded_iff {r : Repl} {line s : Text} (h : r.role line = .groovy) :
    (r.process line).2 = .ok (.recorded s) ↔
      s = r.session.statementWith line ∧ completeness s = .complete := by
  rw [process_verdict h]
  constructor
  · intro hrecorded
    cases hstatement : completeness (r.session.statementWith line) with
    | complete =>
      rw [hstatement] at hrecorded
      simp only [Except.ok.injEq, Action.recorded.injEq] at hrecorded
      exact ⟨hrecorded.symm, hrecorded ▸ hstatement⟩
    | incomplete => simp [hstatement] at hrecorded
  · rintro ⟨rfl, hdone⟩
    rw [hdone]

/-- Nothing but Groovy is recorded. -/
theorem groovy_of_recorded {r : Repl} {line s : Text}
    (h : (r.process line).2 = .ok (.recorded s)) : r.role line = .groovy := by
  rcases hrole : r.role line with _ | reading | _
  · simp [process_ignored hrole] at h
  · rw [process_command hrole] at h
    rcases reading with e | command
    · simp at h
    · cases command <;> simp [runCommand] at h
  · rfl

/-- What a line can do to the lines kept. -/
inductive Effect (r : Repl) (line : Text) : Prop
  | finishes :
      r.role line = .groovy → completeness (r.session.statementWith line) = .complete →
        (r.process line).2 = .ok (.recorded (r.session.statementWith line)) →
          (r.process line).1.session.buffer = [] → Effect r line
  | continues :
      r.role line = .groovy → completeness (r.session.statementWith line) = .incomplete →
        (r.process line).2 = .ok .buffered →
          (r.process line).1.session.buffer = r.session.buffer ++ [line] → Effect r line
  | clears :
      r.role line = .command (.ok .clear) → (r.process line).1.session.buffer = [] →
        Effect r line
  | passes :
      r.role line ≠ .groovy → r.role line ≠ .command (.ok .clear) →
        (∀ s, (r.process line).2 ≠ .ok (.recorded s)) →
          (r.process line).1.session.buffer = r.session.buffer → Effect r line

theorem effect (r : Repl) (line : Text) : Effect r line := by
  by_cases hgroovy : r.role line = .groovy
  · have hverdict := process_verdict hgroovy
    cases hstatement : completeness (r.session.statementWith line) with
    | complete =>
      rw [hstatement] at hverdict
      apply Effect.finishes hgroovy hstatement hverdict
      rw [process_complete hgroovy hstatement]
      rfl
    | incomplete =>
      rw [hstatement] at hverdict
      apply Effect.continues hgroovy hstatement hverdict
      rw [process_incomplete hgroovy hstatement]
      rfl
  · by_cases hclear : r.role line = .command (.ok .clear)
    · exact .clears hclear (process_clear hclear)
    · apply Effect.passes hgroovy hclear
      · intro s hrecorded
        exact hgroovy (groovy_of_recorded hrecorded)
      · exact process_keeps hgroovy hclear

/-! ### Runs -/

/-- A shell in which nothing has been typed. -/
def opened (completion : CompletionSettings) (color : Bool) : Repl :=
  ⟨.new, completion, color, true⟩

/-- The shell after some lines. -/
def after (r : Repl) (lines : List Text) : Repl := lines.foldl (fun r line => (r.process line).1) r

@[simp] theorem after_concat (r : Repl) (lines : List Text) (line : Text) :
    r.after (lines ++ [line]) = ((r.after lines).process line).1 := by
  simp only [after, List.foldl_append, List.foldl_cons, List.foldl_nil]

end Repl

/-- A line, what it was taken for and what it led to. -/
structure Exchange where
  line : Text
  role : LineRole
  result : Except CommandError Action

namespace Exchange

def isGroovy (e : Exchange) : Bool :=
  match e.role with
  | .groovy => true
  | _ => false

/-- Whether the statement being typed was finished or given up. -/
def endsStatement (e : Exchange) : Bool :=
  match e.role, e.result with
  | _, .ok (.recorded _) => true
  | .command (.ok .clear), _ => true
  | _, _ => false

end Exchange

namespace Repl

def exchange (r : Repl) (line : Text) : Exchange := ⟨line, r.role line, (r.process line).2⟩

/-- What some lines lead to, one after the other. -/
def trace (r : Repl) : List Text → List Exchange
  | [] => []
  | line :: lines => r.exchange line :: (r.process line).1.trace lines

@[simp] theorem trace_concat (r : Repl) (lines : List Text) (line : Text) :
    r.trace (lines ++ [line]) = r.trace lines ++ [(r.after lines).exchange line] := by
  induction lines generalizing r with
  | nil => rfl
  | cons first lines ih =>
    rw [List.cons_append, trace, trace, ih, List.cons_append]
    rfl

end Repl

end GroovyShell
