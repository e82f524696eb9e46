/-
  GroovyShell/Proofs/CommandWords.lean
  ====================================
  **Which lines are commands.**

  The loop asks whether a line is a command, for while a statement is being typed
  Groovy too may begin a line with a colon; the reader of commands asks again.  They
  take the line apart in different ways, but both end at its first word
  (`IsFirstWord`) and at the same table, which completion knows too.  So a line that
  the loop takes for a command is never unknown to the reader, and what the reader
  refuses leaves the shell as it was.
-/
import GroovyShell.Proofs.Runs

namespace GroovyShell

/-! ### The table -/

/-- A word that names a command: its name or a short form of it. -/
def CommandName.Registered (word : Text) : Prop := ∃ c : CommandName, c.isNamedBy word = true

theorem CommandName.mem_all (c : CommandName) : c ∈ all := by
  cases c <;> decide

theorem CommandName.named_isSome_iff {word : Text} :
    (named word).isSome = true ↔ Registered word := by
  rw [named, List.find?_isSome]
  constructor
  · rintro ⟨c, -, hc⟩
    exact ⟨c, hc⟩
  · rintro ⟨c, hc⟩
    exact ⟨c, c.mem_all, hc⟩

theorem CommandName.named_eq_none_iff {word : Text} : named word = none ↔ ¬ Registered word := by
  rw [← named_isSome_iff, Option.not_isSome_iff_eq_none]

/-- Completion knows the same words. -/
theorem builtinCommands_any_iff {word : Text} :
    (builtinCommands.any fun c => c.isNamedBy word) = true ↔ CommandName.Registered word := by
  rw [builtinCommands, List.any_map, List.any_eq_true]
  have hsame : ∀ c : CommandName,
      CommandEntry.isNamedBy ⟨c.spelling.toList, c.aliases.map String.toList⟩ word =
        c.isNamedBy word := by
    intro c
    rw [CommandEntry.isNamedBy, CommandName.isNamedBy, List.any_cons, List.contains_eq_any_beq,
      List.any_map]
    congr 2
    funext s
    exact BEq.comm
  constructor
  · rintro ⟨c, -, hc⟩
    exact ⟨c, by rw [← hsame c]; exact hc⟩
  · rintro ⟨c, hc⟩
    exact ⟨c, c.mem_all, by rw [← hsame c] at hc; exact hc⟩

/-! ### The first word -/

/-- `IsFirstWord line word`: blanks, if any, then `word`, then nothing or a blank.
    The empty word is the first of a blank line only. -/
structure IsFirstWord (line word : Text) : Prop where
  solid : ∀ c ∈ word, isBlank c = false
  stands : ∃ before after, line = before ++ word ++ after ∧ before.isBlankOnly = true ∧
    (∀ c ∈ after.head?, isBlank c = true) ∧ (word = [] → after = [])

theorem Text.takeWhile_solid {word after : Text} (hsolid : ∀ c ∈ word, isBlank c = false)
    (hafter : ∀ c ∈ after.head?, isBlank c = true) :
    (word ++ after).takeWhile (fun c => !isBlank c) = word := by
  rw [List.takeWhile_append_of_pos (by simpa using hsolid)]
  cases after with
  | nil => simp
  | cons c after =>
    have hblank : isBlank c = true := hafter c rfl
    simp [hblank]

theorem Text.head_trimStart (t : Text) : ∀ c ∈ t.trimStart.head?, isBlank c = false := by
  intro c hc
  have hhead := List.head?_dropWhile_not isBlank t
  rw [trimStart] at hc
  rw [Option.mem_def.mp hc] at hhead
  simpa using hhead

/-- The first word of a line is found behind the blanks at its beginning. -/
theorem isFirstWord_iff {line word : Text} :
    IsFirstWord line word ↔ line.trimStart.takeWhile (fun c => !isBlank c) = word := by
  constructor
  · rintro ⟨hsolid, before, after, rfl, hbefore, hafter, hempty⟩
    have hskip : Text.trimStart (before ++ word ++ after) = word ++ after := by
      rw [Text.trimStart, List.append_assoc,
        List.dropWhile_append_of_pos (List.all_eq_true.mp hbefore)]
      cases word with
      | nil => rw [hempty rfl]; rfl
      | cons c word => simp [hsolid c List.mem_cons_self]
    rw [hskip, Text.takeWhile_solid hsolid hafter]
  · rintro rfl
    refine ⟨?_, line.takeWhile isBlank, line.trimStart.dropWhile (fun c => !isBlank c), ?_, ?_, ?_, ?_⟩
    · intro c hc
      simpa using List.all_eq_true.mp List.all_takeWhile c hc
    · rw [List.append_assoc, List.takeWhile_append_dropWhile, Text.trimStart,
        List.takeWhile_append_dropWhile]
    · exact List.all_takeWhile
    · intro c hc
      have hhead := List.head?_dropWhile_not (fun c => !isBlank c) line.trimStart
      rw [Option.mem_def.mp hc] at hhead
      simpa using hhead
    · intro hnone
      cases hstart : line.trimStart with
      | nil => rfl
      | cons c rest =>
        have hc : isBlank c = false := Text.head_trimStart line c (by rw [hstart]; rfl)
        simp [hstart, hc] at hnone

/-- A text is what stands before the blanks at its end, and those blanks. -/
theorem Text.trimEnd_append (t : Text) :
    ∃ blanks, t = t.trimEnd ++ blanks ∧ Text.isBlankOnly blanks = true := by
  refine ⟨(t.reverse.takeWhile isBlank).reverse, ?_, ?_⟩
  · rw [trimEnd, ← List.reverse_append, List.takeWhile_append_dropWhile, List.reverse_reverse]
  · rw [isBlankOnly, List.all_reverse]
    exact List.all_takeWhile

/-- The reader of commands takes the first word for the command. -/
theorem firstWord_isFirst (line : Text) : IsFirstWord line (firstWord line).1 := by
  obtain ⟨blanks, htrim, hblanks⟩ := Text.trimEnd_append line.trimStart
  have hline : line = line.takeWhile isBlank ++ (line.trim ++ blanks) := by
    rw [Text.trim, ← htrim, Text.trimStart, List.takeWhile_append_dropWhile]
  have hlead : (line.takeWhile isBlank).all isBlank = true := List.all_takeWhile
  have hhead : ∀ c ∈ (line.trim ++ blanks).head?, isBlank c = false := by
    rw [Text.trim, ← htrim]
    exact line.head_trimStart
  unfold firstWord
  cases hcut : line.trim.cut isBlank with
  | none =>
    refine ⟨Text.cut_eq_none_iff.mp hcut, line.takeWhile isBlank, blanks, ?_, hlead, ?_, ?_⟩
    · rw [List.append_assoc]
      exact hline
    · intro c hc
      exact List.all_eq_true.mp hblanks c (List.mem_of_mem_head? hc)
    · intro hnone
      cases blanks with
      | nil => rfl
      | cons c blanks =>
        have hc : isBlank c = false := hhead c (by simp [show line.trim = [] from hnone])
        have hall := List.all_eq_true.mp hblanks c List.mem_cons_self
        simp [hc] at hall
  | some halves =>
    obtain ⟨word, rest⟩ := halves
    obtain ⟨c, hsplit, hc, hword⟩ := Text.cut_eq_some hcut
    refine ⟨hword, line.takeWhile isBlank, c :: rest ++ blanks, ?_, hlead, ?_, ?_⟩
    · rw [hsplit] at hline
      simpa using hline
    · simpa using hc
    · intro hnone
      have hword : word = [] := hnone
      have hsolid : isBlank c = false := hhead c (by simp [hsplit, hword])
      simp [hc] at hsolid

/-! ### Three recognisers -/

/-- The loop looks at the first word. -/
theorem Repl.namesCommand_iff {line word : Text} (h : IsFirstWord line word) :
    namesCommand line = true ↔ CommandName.Registered word := by
  rw [namesCommand, isFirstWord_iff.mp h, CommandName.named_isSome_iff]

theorem readTarget_ne_unknown (command : CommandName) (argument : Text) (done : Target → Command)
    (word : String) : (readTarget command argument).map done ≠ .error (.unknown word) := by
  unfold readTarget
  split
  · simp [Except.map]
  · split <;> simp [Except.map]

theorem readImport_ne_unknown (argument : Text) (word : String) :
    readImport argument ≠ .error (.unknown word) := by
  unfold readImport
  extract_lets name
  split
  · simp
  · split <;> simp

/-- A command is unknown exactly if the first word is not registered, and it is
    that word that is reported. -/
theorem readCommand_eq_unknown_iff {line word : Text} (h : IsFirstWord line word)
    {reported : String} :
    readCommand line = .error (.unknown reported) ↔
      ¬ CommandName.Registered word ∧ reported = word.string := by
  have hfirst : (firstWord line).1 = word := by
    rw [← isFirstWord_iff.mp (firstWord_isFirst line), isFirstWord_iff.mp h]
  unfold readCommand
  rw [← CommandName.named_eq_none_iff, ← hfirst]
  generalize firstWord line = parts
  obtain ⟨first, argument⟩ := parts
  dsimp only
  cases hnamed : CommandName.named first with
  | none => simp [eq_comm]
  | some command =>
    have hknown : some command ≠ none := Option.some_ne_none command
    simp only [hknown, false_and, iff_false]
    cases command with
    | list => exact readTarget_ne_unknown _ argument _ reported
    | purge => exact readTarget_ne_unknown _ argument _ reported
    | addImport => exact readImport_ne_unknown argument reported
    | _ => simp

/-- The loop and the reader agree on which lines are commands. -/
theorem Repl.namesCommand_iff_known (line : Text) :
    namesCommand line = true ↔ ∀ word, readCommand line ≠ .error (.unknown word) := by
  have hfirst := firstWord_isFirst line
  rw [namesCommand_iff hfirst]
  constructor
  · intro hregistered word hunknown
    exact ((readCommand_eq_unknown_iff hfirst).mp hunknown).1 hregistered
  · intro hknown
    by_contra hnot
    exact hknown _ ((readCommand_eq_unknown_iff hfirst).mpr ⟨hnot, rfl⟩)

/-! ### What the loop makes of it -/

namespace Repl

variable {r : Repl} {line : Text}

/-- While a statement is pending, a line is a command only if its first word is
    registered. -/
theorem role_pending (line : Text) (hpending : r.session.buffer ≠ []) :
    r.role line = .command (readCommand line) ∧ namesCommand line = true ∨ r.role line = .groovy := by
  have hsome : r.session.buffer.isEmpty = false := by simpa using hpending
  unfold role isCommand
  rw [hsome, Bool.false_or]
  by_cases hcommand : (isCommandLine line && namesCommand line) = true
  · left
    rw [if_neg (by simp), if_pos hcommand]
    exact ⟨rfl, (Bool.and_eq_true_iff.mp hcommand).2⟩
  · right
    rw [if_neg (by simp), if_neg hcommand]

theorem process_ne_unknown (hpending : r.session.buffer ≠ []) (word : String) :
    (r.process line).2 ≠ .error (.unknown word) := by
  rcases role_pending line hpending with ⟨hcommand, hnames⟩ | hgroovy
  · have hknown := (namesCommand_iff_known line).mp hnames word
    generalize readCommand line = reading at hcommand hknown
    rw [process_command hcommand]
    cases reading with
    | ok command => simp
    | error e => simpa using hknown
  · rw [process_groovy hgroovy]
    simp

/-- A command that fails leaves everything as it was. -/
theorem process_error {e : CommandError} (h : (r.process line).2 = .error e) :
    (r.process line).1 = r := by
  rcases hrole : r.role line with _ | reading | _
  · rw [process_ignored hrole]
  · rw [process_command hrole] at h ⊢
    cases reading with
    | ok command => simp at h
    | error e => rfl
  · rw [process_groovy hrole] at h
    simp at h

end Repl

/-- **Which lines are commands.**  The loop knows the command on a line exactly if
    its first word is registered, and exactly if the reader does not call it
    unknown.  So while a statement is pending no line is an unknown command: one
    whose first word is not registered is kept, or finishes the statement.  A line
    that is answered with an error changes nothing, whatever the state. -/
theorem command_recognisers_agree (line : Text) :
    (Repl.namesCommand line = true ↔ ∀ word, readCommand line ≠ .error (.unknown word)) ∧
      (∀ word, IsFirstWord line word →
        (Repl.namesCommand line = true ↔ CommandName.Registered word)) ∧
      (∀ r : Repl, r.session.buffer ≠ [] →
        (∀ word, (r.process line).2 ≠ .error (.unknown word)) ∧
          ∀ word, IsFirstWord line word → ¬ CommandName.Registered word →
            r.process line = ({ r with session := r.session.pushLine line }, .ok .buffered) ∨
              r.process line =
                ({ r with session := (r.session.record (r.session.statementWith line)).clearBuffer },
                  .ok (.recorded (r.session.statementWith line)))) ∧
      ∀ (r : Repl) (e : CommandError), (r.process line).2 = .error e → (r.process line).1 = r := by
  refine ⟨Repl.namesCommand_iff_known line, fun word => Repl.namesCommand_iff, ?_,
    fun r e h => Repl.process_error h⟩
  intro r hpending
  refine ⟨Repl.process_ne_unknown hpending, ?_⟩
  intro word hfirst hnot
  rcases Repl.role_pending line hpending with ⟨-, hnames⟩ | hgroovy
  · exact absurd ((Repl.namesCommand_iff hfirst).mp hnames) hnot
  · cases hverdict : completeness (r.session.statementWith line) with
    | incomplete => exact .inl (Repl.process_incomplete hgroovy hverdict)
    | complete => exact .inr (Repl.process_complete hgroovy hverdict)

/-- A map goes on below its first key: the line is no command and finishes the
    statement.  A command that is known but cannot be read changes nothing. -/
theorem command_recognisers_agree_map_key :
    let r : Repl := ⟨⟨["x = [a".toList], .empty, .empty, .empty, .empty⟩, .default, false, true⟩
    IsFirstWord " :b, 1]".toList ":b,".toList ∧
      ¬ CommandName.Registered ":b,".toList ∧
      r.process " :b, 1]".toList =
        ({ r with session := (r.session.record "x = [a\n :b, 1]".toList).clearBuffer },
          .ok (.recorded "x = [a\n :b, 1]".toList)) ∧
      (r.process " :show it".toList).2 =
        .error (.invalid "Unknown target for :show: it") ∧
      (r.process " :show it".toList).1 = r := by
  intro r
  have hfirst : IsFirstWord " :b, 1]".toList ":b,".toList :=
    isFirstWord_iff.mpr (by decide +kernel)
  have hnot : ¬ CommandName.Registered ":b,".toList := by
    rw [← CommandName.named_eq_none_iff]
    decide +kernel
  have hfails : (r.process " :show it".toList).2 =
      .error (.invalid "Unknown target for :show: it") := by decide +kernel
  obtain ⟨-, -, hpending, -⟩ := command_recognisers_agree " :b, 1]".toList
  obtain ⟨-, -, -, hkept⟩ := command_recognisers_agree " :show it".toList
  refine ⟨hfirst, hnot, ?_, hfails, hkept r _ hfails⟩
  rcases (hpending r (by simp [r])).2 _ hfirst hnot with hbuffered | hrecorded
  · have hresult : (r.process " :b, 1]".toList).2 ≠ .ok .buffered := by decide +kernel
    exact absurd (congrArg Prod.snd hbuffered) hresult
  · exact hrecorded

end GroovyShell
