/-
  GroovyShell/Proofs/HistoryHints.lean
  ====================================
  **Which past input a hint comes from, and where taking it over leads.**

  One search answers for every line: the newest past input that begins with it.
  A hint is what this input has behind the line, so the input is also the newest
  one that goes on behind the line.  The search stops at the line itself, though,
  if that was entered later than all that extend it: then nothing is shown.

  Each part of a hint that is taken over makes the line longer.  The same input is
  found for the longer line (`History.Newest.longer`), so the hint shrinks by
  exactly what was taken, until the line is the input found at first.
-/
import GroovyShell.Shell.Hinter
import Mathlib.Logic.Function.Iterate

namespace GroovyShell

/-! ### The newest input of a kind -/

/-- A past input extends a line if it begins with it and is longer. -/
def Text.Extends (entry line : Text) : Prop :=
  line <+: entry ∧ line.length < entry.length

namespace History

/-- `h.Newest p entry`: of the past inputs that satisfy `p`, `entry` is the newest. -/
def Newest (h : History) (p : Text → Prop) (entry : Text) : Prop :=
  ∃ newer older, h.entries = newer ++ entry :: older ∧ p entry ∧ ∀ other ∈ newer, ¬ p other

/-- A line was entered as it stands, later than every input that extends it: of all
    that begin with it, it is the newest itself. -/
def EnteredSince (h : History) (line : Text) : Prop := h.Newest (line <+: ·) line

end History

theorem Text.extends_append {line rest : Text} : (line ++ rest).Extends line ↔ rest ≠ [] := by
  rw [Extends, List.length_append, ← List.length_pos_iff]
  constructor
  · rintro ⟨-, hlonger⟩
    omega
  · intro hsome
    exact ⟨List.prefix_append line rest, by omega⟩

namespace History

variable {h : History} {line rest entry : Text} {p q : Text → Prop}

theorem Newest.holds (hnewest : h.Newest p entry) : p entry := by
  obtain ⟨newer, older, -, hentry, -⟩ := hnewest
  exact hentry

theorem Newest.mem (hnewest : h.Newest p entry) : entry ∈ h.entries := by
  obtain ⟨newer, older, hentries, -, -⟩ := hnewest
  rw [hentries]
  exact List.mem_append_right newer List.mem_cons_self

/-- The newest input of a kind is the newest of every narrower kind it belongs to. -/
theorem Newest.narrow (hnewest : h.Newest p entry) (hentry : q entry)
    (hnarrower : ∀ other, q other → p other) : h.Newest q entry := by
  obtain ⟨newer, older, hentries, -, hnewer⟩ := hnewest
  refine ⟨newer, older, hentries, hentry, ?_⟩
  intro other hother hq
  exact hnewer other hother (hnarrower other hq)

/-- The search answers with the newest input that begins with the line. -/
theorem newestWith_eq_some : h.newestWith line = some entry ↔ h.Newest (line <+: ·) entry := by
  have hstarts : ∀ other : Text, other.beginsWith line = true ↔ line <+: other := by
    intro other
    rw [Text.beginsWith, List.isPrefixOf_iff_prefix]
  rw [newestWith, List.find?_eq_some_iff_append]
  constructor
  · rintro ⟨hbegins, newer, older, hentries, hnewer⟩
    refine ⟨newer, older, hentries, (hstarts entry).mp hbegins, ?_⟩
    intro other hother hlonger
    simpa [(hstarts other).mpr hlonger] using hnewer other hother
  · rintro ⟨newer, older, hentries, hbegins, hnewer⟩
    refine ⟨(hstarts entry).mpr hbegins, newer, older, hentries, ?_⟩
    intro other hother
    simpa using mt (hstarts other).mp (hnewer other hother)

theorem newestWith_isSome (hentry : entry ∈ h.entries) (hbegins : line <+: entry) :
    ∃ rest, h.Newest (line <+: ·) (line ++ rest) := by
  cases hfound : h.newestWith line with
  | none =>
    have hnone := List.find?_eq_none.mp hfound entry hentry
    exact absurd (List.isPrefixOf_iff_prefix.mpr hbegins) hnone
  | some found =>
    have hnewest := newestWith_eq_some.mp hfound
    obtain ⟨rest, rfl⟩ := hnewest.holds
    exact ⟨rest, hnewest⟩

/-- The input found for a line is found for every longer line that it begins with. -/
theorem Newest.longer {front : Text} (hnewest : h.Newest (line <+: ·) (line ++ (front ++ rest))) :
    h.Newest (line ++ front <+: ·) (line ++ front ++ rest) := by
  rw [List.append_assoc]
  apply hnewest.narrow
  · rw [← List.append_assoc]
    exact List.prefix_append (line ++ front) rest
  · intro other hother
    exact (List.prefix_append line front).trans hother

end History

/-! ### The hint for a line -/

section

variable {h : History} {line hint : Text}

theorem hintFor_blank (hblank : line.isBlankOnly = true) : hintFor h line true = [] := by
  simp [hintFor, hblank]

/-- A hint is what the input found has behind the line, be it nothing. -/
theorem hintFor_of_newest (hline : line.isBlankOnly = false)
    (hnewest : h.Newest (line <+: ·) (line ++ hint)) : hintFor h line true = hint := by
  have hfound := History.newestWith_eq_some.mpr hnewest
  rw [hintFor, if_pos (by simpa using hline), restOfNewest, hfound, Option.map_some, List.drop_left]
  cases hint with
  | nil => rfl
  | cons c hint => rfl

theorem newest_of_hintFor (hhint : hintFor h line true = hint) (hsome : hint ≠ []) :
    line.isBlankOnly = false ∧ h.Newest (line <+: ·) (line ++ hint) := by
  have hline : line.isBlankOnly = false := by
    by_contra hblank
    rw [hintFor_blank (by simpa using hblank)] at hhint
    exact hsome hhint.symm
  refine ⟨hline, ?_⟩
  cases hfound : h.newestWith line with
  | none =>
    rw [hintFor, if_pos (by simpa using hline), restOfNewest, hfound] at hhint
    exact absurd hhint.symm hsome
  | some entry =>
    have hnewest := History.newestWith_eq_some.mp hfound
    obtain ⟨rest, rfl⟩ := hnewest.holds
    rw [hintFor_of_newest hline hnewest] at hhint
    rwa [hhint] at hnewest

/-- No hint comes from an older input than the line itself. -/
theorem not_enteredSince (hsome : hint ≠ []) (hnewest : h.Newest (line <+: ·) (line ++ hint)) :
    ¬ h.EnteredSince line := by
  intro hentered
  have hline := History.newestWith_eq_some.mpr hentered
  rw [History.newestWith_eq_some.mpr hnewest, Option.some.injEq] at hline
  exact hsome (List.append_right_eq_self.mp hline)

/-- Without a hint no input extends the line, unless the line was entered since. -/
theorem enteredSince_of_hintFor {entry : Text} (hline : line.isBlankOnly = false)
    (hnone : hintFor h line true = []) (hentry : entry ∈ h.entries)
    (hextends : entry.Extends line) : h.EnteredSince line := by
  obtain ⟨rest, hnewest⟩ := History.newestWith_isSome hentry hextends.1
  rw [hintFor_of_newest hline hnewest] at hnone
  rwa [hnone, List.append_nil] at hnewest

/-- **Which past input a hint comes from.**  What is shown at the end of a line is
    the rest of the newest input that extends it.  Something is shown exactly if
    there is such an input and the line itself was not entered later than all of
    them. -/
theorem hint_from_newest (h : History) (line : Text) (hline : line.isBlankOnly = false) :
    let shown := shownHint false (hintFor h line true)
    (shown ≠ "" ↔ (∃ entry ∈ h.entries, entry.Extends line) ∧ ¬ h.EnteredSince line) ∧
      (shown ≠ "" → h.Newest (·.Extends line) (line ++ shown.toList)) := by
  intro shown
  have hplain : shown = (hintFor h line true).string := by simp [shown, shownHint]
  have hlist : shown.toList = hintFor h line true := by
    rw [hplain, Text.string, String.toList_ofList]
  have hempty : shown ≠ "" ↔ hintFor h line true ≠ [] := by
    rw [ne_eq, ne_eq, ← hlist, String.toList_eq_nil_iff]
  rw [hempty, hlist]
  have hextending : hintFor h line true ≠ [] →
      h.Newest (·.Extends line) (line ++ hintFor h line true) := by
    intro hsome
    apply (newest_of_hintFor rfl hsome).2.narrow
    · exact Text.extends_append.mpr hsome
    · intro other hother
      exact hother.1
  refine ⟨?_, hextending⟩
  constructor
  · intro hsome
    have hnewest := hextending hsome
    refine ⟨⟨_, hnewest.mem, Text.extends_append.mpr hsome⟩, ?_⟩
    exact not_enteredSince hsome (newest_of_hintFor rfl hsome).2
  · rintro ⟨⟨entry, hentry, hextends⟩, hentered⟩ hnone
    exact hentered (enteredSince_of_hintFor hline hnone hentry hextends)

/-- An input entered once more without its ending hides the longer one. -/
theorem hint_from_newest_hidden :
    let h : History := ⟨100, ["foo".toList, "foobar".toList]⟩
    let line : Text := "foo".toList
    line.isBlankOnly = false ∧ (∃ entry ∈ h.entries, entry.Extends line) ∧ h.EnteredSince line ∧
      shownHint false (hintFor h line true) = "" := by
  intro h line
  have hline : line.isBlankOnly = false := by decide
  have hextends : ∃ entry ∈ h.entries, entry.Extends line :=
    ⟨"foobar".toList, by simp [h], ⟨"bar".toList, rfl⟩, by decide⟩
  have hentered : h.EnteredSince line := ⟨[], ["foobar".toList], rfl, List.prefix_rfl, by simp⟩
  refine ⟨hline, hextends, hentered, ?_⟩
  by_contra hshown
  exact ((hint_from_newest h line hline).1.mp hshown).2 hentered

end

/-! ### Taking a hint over -/

/-- A line after the first part of its hint has been taken over. -/
def History.takeWord (h : History) (line : Text) : Text :=
  line ++ nextHintWord (hintFor h line true)

theorem nextHintWord_ne_nil {hint : Text} (hsome : hint ≠ []) : nextHintWord hint ≠ [] := by
  intro hnone
  rcases List.take_eq_nil_iff.mp hnone with hzero | hnil
  · omega
  · exact hsome hnil

theorem nextHintWord_prefix (hint : Text) : nextHintWord hint <+: hint :=
  List.take_prefix _ _

/-- What is left of a hint after some of it has been taken over is the hint for the
    longer line. -/
theorem hintFor_append {h : History} {line front rest : Text}
    (hhint : hintFor h line true = front ++ rest) : hintFor h (line ++ front) true = rest := by
  by_cases hsome : front ++ rest = []
  · obtain ⟨rfl, rfl⟩ := List.append_eq_nil_iff.mp hsome
    rw [List.append_nil]
    exact hhint
  · obtain ⟨hline, hnewest⟩ := newest_of_hintFor hhint hsome
    apply hintFor_of_newest
    · rw [Text.isBlankOnly_append, hline, Bool.false_and]
    · exact hnewest.longer

namespace History

variable {h : History}

/-- Each part taken over is missing from the next hint. -/
theorem hintFor_takeWord (h : History) (line : Text) :
    hintFor h line true =
      nextHintWord (hintFor h line true) ++ hintFor h (h.takeWord line) true := by
  obtain ⟨rest, hrest⟩ := nextHintWord_prefix (hintFor h line true)
  rw [takeWord, hintFor_append hrest.symm, hrest]

/-- However much has been taken over, line and hint together stay the same. -/
theorem takeWord_iterate_append (h : History) (line : Text) (n : Nat) :
    h.takeWord^[n] line ++ hintFor h (h.takeWord^[n] line) true =
      line ++ hintFor h line true := by
  induction n with
  | zero => rfl
  | succ n ih =>
    rw [← ih, Function.iterate_succ_apply', hintFor_takeWord h (h.takeWord^[n] line)]
    rw [← List.append_assoc]
    rfl

/-- Taking over goes on as long as there is a hint, and then there is none. -/
theorem takeWord_iterate_ends (h : History) (line : Text) :
    ∃ n ≤ (hintFor h line true).length, hintFor h (h.takeWord^[n] line) true = [] ∧
      ∀ i < n, hintFor h (h.takeWord^[i] line) true ≠ [] := by
  induction hlength : (hintFor h line true).length using Nat.strongRecOn generalizing line with
  | ind length ih =>
    by_cases hnone : hintFor h line true = []
    · exact ⟨0, Nat.zero_le _, hnone, by simp⟩
    · have hpiece := List.length_pos_iff.mpr (nextHintWord_ne_nil hnone)
      have hshorter := congrArg List.length (hintFor_takeWord h line)
      rw [List.length_append] at hshorter
      obtain ⟨n, hn, hend, hbefore⟩ := ih _ (by omega) (h.takeWord line) rfl
      refine ⟨n + 1, by omega, ?_, ?_⟩
      · rw [Function.iterate_succ_apply]
        exact hend
      · intro i hi
        cases i with
        | zero => exact hnone
        | succ i =>
          rw [Function.iterate_succ_apply]
          exact hbefore i (by omega)

end History

/-- **A hint taken over word by word is taken over whole.**  Each time a part of the
    hint is added to the line, never an empty one, and the rest is the next hint;
    after finitely many times the line is what the whole hint would have made of
    it, and no hint is left. -/
theorem hint_word_by_word (h : History) (line : Text) :
    ∃ n ≤ (hintFor h line true).length,
      h.takeWord^[n] line = line ++ hintFor h line true ∧
      hintFor h (h.takeWord^[n] line) true = [] ∧
      ∀ i < n,
        let typed := h.takeWord^[i] line
        let hint := hintFor h typed true
        h.takeWord^[i + 1] line = typed ++ nextHintWord hint ∧
          nextHintWord hint ≠ [] ∧ nextHintWord hint <+: hint ∧
          typed ++ hint = line ++ hintFor h line true := by
  obtain ⟨n, hn, hend, hbefore⟩ := h.takeWord_iterate_ends line
  refine ⟨n, hn, ?_, hend, ?_⟩
  · rw [← h.takeWord_iterate_append line n, hend, List.append_nil]
  · intro i hi typed hint
    refine ⟨?_, ?_, ?_, ?_⟩
    · rw [Function.iterate_succ_apply']
      rfl
    · exact nextHintWord_ne_nil (hbefore i hi)
    · exact nextHintWord_prefix hint
    · exact h.takeWord_iterate_append line i

/-- Two words and a bracket, taken over in three parts. -/
example :
    let h : History := ⟨100, ["names.each \x7b it \x7d".toList]⟩
    (hintFor h "names.".toList true).string = "each \x7b it \x7d" ∧
      (h.takeWord^[3] "names.".toList).string = "names.each \x7b it" := by
  decide +kernel

end GroovyShell
