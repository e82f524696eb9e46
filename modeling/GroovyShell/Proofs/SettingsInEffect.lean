/-
  GroovyShell/Proofs/SettingsInEffect.lean
  ========================================
  **The settings the shell starts with.**

  The settings of the file are checked before the options of the command line are
  applied to them, and nothing is checked afterwards.  Nothing has to be: the options
  change no setting that is checked, except that they may leave the history in memory,
  and then it needs no file.  What is wrong in the file is not repaired setting by
  setting; the defaults take the place of all of it.
-/
import GroovyShell.Launch.Interface

namespace GroovyShell

/-! ### Settings that may be used -/

/-- Settings the shell can be run with: it keeps inputs, and a history that outlives the
    shell has a file. -/
structure Config.Usable (c : Config) : Prop where
  keepsInputs : c.history.maxSize ≠ 0
  hasFile : c.history.persist = true → c.history.filePath ≠ []

/-- The check finds a problem exactly in settings that may not be used. -/
theorem Config.problem_eq_none_iff {c : Config} : c.problem = none ↔ c.Usable := by
  unfold Config.problem
  constructor
  · intro h
    split at h
    · simp at h
    · rename_i hsize
      split at h
      · simp at h
      · rename_i hfile
        refine ⟨hsize, ?_⟩
        intro hpersist hempty
        exact hfile ⟨hpersist, by rw [hempty]; rfl⟩
  · rintro ⟨hsize, hfile⟩
    rw [if_neg hsize, if_neg]
    rintro ⟨hpersist, hempty⟩
    exact hfile hpersist (List.isEmpty_iff.mp hempty)

theorem joinPath_ne_nil (base : Text) {path : Text} (h : path ≠ []) : joinPath base path ≠ [] := by
  unfold joinPath
  split
  · exact h
  · split <;> simp [h]

/-- The defaults may be used, wherever the home directory is. -/
theorem Config.usable_default (home : Option Text) : (Config.default home).Usable := by
  constructor
  · change (1000 : UInt64) ≠ 0
    decide
  · intro _
    exact joinPath_ne_nil _ (by decide)

/-! ### What the options change -/

/-- `InEffect o base c`: the settings `c` are those of `base`, but for the level, which the
    most talkative of the options decides, and for a history that is not to be kept. -/
structure InEffect (o : Options) (base c : Config) : Prop where
  maxSize : c.history.maxSize = base.history.maxSize
  historyFile : c.history.filePath = base.history.filePath
  logFile : c.logging.filePath = base.logging.filePath
  timestamps : c.logging.timestamps = base.logging.timestamps
  completion : c.completion = base.completion
  traced : o.veryVerbose = true → c.logging.level = .trace
  debugged : o.veryVerbose = false → o.verbose = true → c.logging.level = .debug
  quieted : o.veryVerbose = false → o.verbose = false → o.quiet = true → c.logging.level = .error
  level : o.veryVerbose = false → o.verbose = false → o.quiet = false →
    c.logging.level = base.logging.level
  forgotten : o.noHistory = true → c.history.persist = false
  persist : o.noHistory = false → c.history.persist = base.history.persist

namespace InEffect

variable {o : Options} {base c : Config}

/-- Options never make settings useless: they may only take away the need for a file. -/
theorem usable (h : InEffect o base c) (hbase : base.Usable) : c.Usable := by
  constructor
  · rw [h.maxSize]
    exact hbase.keepsInputs
  · intro hpersist
    rw [h.historyFile]
    apply hbase.hasFile
    cases hoption : o.noHistory with
    | true =>
      rw [h.forgotten hoption] at hpersist
      simp at hpersist
    | false => rwa [← h.persist hoption]

theorem withOptions (o : Options) (base : Config) : InEffect o base (base.withOptions o) := by
  constructor <;> simp +contextual [Config.withOptions]

/-- Nothing else is left open: there is one way for the options to be in effect. -/
theorem eq_withOptions (h : InEffect o base c) : c = base.withOptions o := by
  have hlevel : c.logging.level = (base.withOptions o).logging.level := by
    cases htrace : o.veryVerbose with
    | true => simp [Config.withOptions, htrace, h.traced htrace]
    | false =>
      cases hdebug : o.verbose with
      | true => simp [Config.withOptions, htrace, hdebug, h.debugged htrace hdebug]
      | false =>
        cases hquiet : o.quiet with
        | true => simp [Config.withOptions, htrace, hdebug, hquiet, h.quieted htrace hdebug hquiet]
        | false => simp [Config.withOptions, htrace, hdebug, hquiet, h.level htrace hdebug hquiet]
  have hpersist : c.history.persist = (base.withOptions o).history.persist := by
    cases hoption : o.noHistory with
    | true => simp [Config.withOptions, hoption, h.forgotten hoption]
    | false => simp [Config.withOptions, hoption, h.persist hoption]
  calc c = ⟨⟨c.history.maxSize, c.history.filePath, c.history.persist⟩,
        ⟨c.logging.level, c.logging.filePath, c.logging.timestamps⟩, c.completion⟩ := rfl
    _ = base.withOptions o := by
      rw [h.maxSize, h.historyFile, h.logFile, h.timestamps, h.completion, hlevel, hpersist]
      rfl

end InEffect

/-! ### What the options are applied to -/

/-- `Underlying home file base`: the settings `base` are those of the file, or the defaults
    if there is no file or its settings may not be used. -/
inductive Underlying (home : Option Text) : ConfigFile → Config → Prop
  | missing : Underlying home .missing (.default home)
  | usable {content : Text} {c : Config} : configOfText home content = .ok c → c.Usable →
      Underlying home (.readable content) c
  | unusable {content : Text} {c : Config} : configOfText home content = .ok c → ¬ c.Usable →
      Underlying home (.readable content) (.default home)

theorem Underlying.base_usable {home : Option Text} {file : ConfigFile} {base : Config}
    (h : Underlying home file base) : base.Usable := by
  cases h with
  | missing => exact Config.usable_default home
  | usable _ husable => exact husable
  | unusable _ _ => exact Config.usable_default home

theorem prepare_underlying {o : Options} {home : Option Text} {file : ConfigFile} {i : Interface}
    (h : Interface.prepare o home file = .ok i) :
    ∃ base, Underlying home file base ∧ i.config = base.withOptions o := by
  unfold Interface.prepare at h
  cases file with
  | unreadable reason => simp [ConfigFile.settings, Except.map] at h
  | missing =>
    have hnone := Config.problem_eq_none_iff.mpr (Config.usable_default home)
    simp only [ConfigFile.settings, Except.map, hnone, Except.ok.injEq] at h
    exact ⟨_, .missing, by rw [← h]⟩
  | readable content =>
    simp only [ConfigFile.settings] at h
    cases hread : configOfText home content with
    | error e => simp [hread, Except.map] at h
    | ok c =>
      simp only [hread, Except.map, Except.ok.injEq] at h
      cases hproblem : c.problem with
      | none =>
        rw [hproblem] at h
        exact ⟨c, .usable hread (Config.problem_eq_none_iff.mp hproblem), by rw [← h]⟩
      | some problem =>
        have hnot : ¬ c.Usable := by
          rw [← Config.problem_eq_none_iff, hproblem]
          simp
        rw [hproblem] at h
        exact ⟨_, .unusable hread hnot, by rw [← h]⟩

/-- Nothing but a file that cannot be read keeps the shell from starting. -/
theorem prepare_of_underlying {home : Option Text} {file : ConfigFile} {base : Config}
    (h : Underlying home file base) (o : Options) :
    ∃ i, Interface.prepare o home file = .ok i := by
  unfold Interface.prepare
  cases h with
  | missing => exact ⟨_, rfl⟩
  | usable hread _ | unusable hread _ =>
    simp only [ConfigFile.settings, hread, Except.map]
    exact ⟨_, rfl⟩

/-- **The settings in effect may be used, and differ from those of the file only where the
    options say so.**  The shell starts with them exactly when there is no file or a file
    that holds settings. -/
theorem settings_in_effect (o : Options) (home : Option Text) (file : ConfigFile) :
    ((∃ i, Interface.prepare o home file = .ok i) ↔ ∃ base, Underlying home file base) ∧
      ∀ i, Interface.prepare o home file = .ok i → i.config.problem = none ∧
        ∃ base, Underlying home file base ∧ ∀ c, InEffect o base c ↔ c = i.config := by
  constructor
  · constructor
    · rintro ⟨i, hi⟩
      obtain ⟨base, hbase, -⟩ := prepare_underlying hi
      exact ⟨base, hbase⟩
    · rintro ⟨base, hbase⟩
      exact prepare_of_underlying hbase o
  · intro i hi
    obtain ⟨base, hbase, hconfig⟩ := prepare_underlying hi
    have heffect : InEffect o base i.config := hconfig ▸ .withOptions o base
    refine ⟨Config.problem_eq_none_iff.mpr (heffect.usable hbase.base_usable), base, hbase, ?_⟩
    intro c
    constructor
    · intro h
      rw [h.eq_withOptions, hconfig]
    · rintro rfl
      exact heffect

/-- A file whose history keeps no inputs is set aside with all that it says, and the
    options are applied to the defaults. -/
theorem settings_in_effect_unusable :
    let content := "[history]\nmax_size = 0\n[completion]\nmembers = false\n".toList
    let home : Option Text := some "/h".toList
    ∃ i, Interface.prepare ⟨none, false, true, true, true, false, none⟩ home
        (.readable content) = .ok i ∧ i.config.problem = none ∧
      i.config = ⟨⟨1000, "/h/.groovysh/history".toList, false⟩, ⟨.debug, none, true⟩, .default⟩ := by
  intro content home
  let written : Config :=
    ⟨⟨0, "/h/.groovysh/history".toList, true⟩, .default, ⟨true, true, true, true, false, true, false⟩⟩
  have hread : configOfText home content = .ok written := by rfl
  have hnot : ¬ written.Usable := by
    intro h
    exact h.keepsInputs rfl
  obtain ⟨hstarts, heffect⟩ :=
    settings_in_effect ⟨none, false, true, true, true, false, none⟩ home (.readable content)
  obtain ⟨i, hi⟩ := hstarts.mpr ⟨_, .unusable hread hnot⟩
  obtain ⟨hproblem, base, hbase, hconfig⟩ := heffect i hi
  refine ⟨i, hi, hproblem, ?_⟩
  cases hbase with
  | usable hread' husable =>
    obtain rfl := Except.ok.inj (hread.symm.trans hread')
    exact absurd husable hnot
  | unusable _ _ =>
    symm
    rw [← hconfig]
    constructor <;> simp <;> rfl

end GroovyShell
