/-
  GroovyShell/Proofs/ExactCandidates.lean
  =======================================
  **A place is given exactly if something is offered.**

  Whether there is a place to complete at, and what is offered there, is decided
  apart from each other in every completer.  They keep in step (`InStep`): names,
  members and file names each give a place exactly if they offer something, and so
  does the engine that asks them.  What names are offered is known exactly: from
  each source that the settings allow, all names that begin with the word, by their
  bytes and each once (`ListsNames`).
-/
import GroovyShell.Proofs.BehindCursor
import GroovyShell.Proofs.ByteOrder

namespace GroovyShell

/-! ### Places and candidates -/

/-- Without a place nothing is offered, and with one something is. -/
structure PlacedOffer.InStep (offer : PlacedOffer) : Prop where
  nothing : offer.place = .none → offer.candidates = []
  something : ∀ place, offer.place = some place → offer.candidates ≠ []

theorem PlacedOffer.InStep.empty : PlacedOffer.none.InStep where
  nothing _ := rfl
  something place h := by simp [PlacedOffer.none] at h

theorem PlacedOffer.InStep.placed {candidates : List Text} (h : candidates ≠ []) (place : Nat)
    (notes : List String) : InStep ⟨candidates, some place, notes⟩ where
  nothing hnone := by simp at hnone
  something _ _ := h

/-- Moved elsewhere, an offer stays in step. -/
theorem PlacedOffer.InStep.moved {offer : PlacedOffer} (h : offer.InStep) (move : Nat → Nat) :
    InStep { offer with place := offer.place.map move } where
  nothing hnone := h.nothing (Option.map_eq_none_iff.mp hnone)
  something place hplace := by
    obtain ⟨original, horiginal, -⟩ := Option.map_eq_some_iff.mp hplace
    exact h.something original horiginal

theorem inStep_completeMembers (s : Session) (stream : TokenStream) (present : Nat) :
    (completeMembers s stream present).InStep := by
  unfold completeMembers
  split
  · exact .empty
  · dsimp only
    split
    · exact .empty
    · rename_i hfound
      exact .placed (by simpa using hfound) _ _

theorem inOrder_ne_nil {texts : List Text} (h : texts ≠ []) : inOrder texts ≠ [] := by
  obtain ⟨t, ht⟩ := List.exists_mem_of_ne_nil texts h
  exact List.ne_nil_of_mem (mem_inOrder.mpr ht)

theorem inStep_completeFilename (d : Disk) (showHidden : Bool) (text : Text)
    (cursor present : Nat) : (completeFilename d showHidden text cursor present).InStep := by
  unfold completeFilename
  dsimp only
  split
  · split
    · exact .empty
    · rename_i hfound
      exact .placed (inOrder_ne_nil (by simpa using hfound)) _ _
  · exact .empty

/-! ### Names -/

/-- `ListsNames typed names found`: `found` are the names that begin with what is
    typed, by their bytes and each once. -/
structure ListsNames (typed : Text) (names found : List Text) : Prop where
  rising : found.Pairwise fun a b => a.bytes < b.bytes
  exact : ∀ name, name ∈ found ↔ name ∈ names ∧ typed <+: name

theorem listsNames_matching (typed : Text) (names : List Text) :
    ListsNames typed names (matching typed names) where
  rising := (matching_rising typed names).imp Text.bytes_lt_bytes.mpr
  exact name := by rw [mem_matching, Text.beginsWith, List.isPrefixOf_iff_prefix]

/-- Sources of names that are asked one after the other offer their names one
    after the other, and say so exactly if there are any. -/
theorem completeFromAll_sources (sources : List (List Text)) (stream : TokenStream)
    (present : Nat) :
    let found := (sources.map (matching stream.word)).flatten
    completeFromAll (sources.map completeFrom) stream present = ⟨found, !found.isEmpty, []⟩ := by
  induction sources generalizing present with
  | nil => rfl
  | cons names rest ih =>
    simp only [List.map_cons, completeFromAll, completeFrom, ih, List.flatten_cons,
      List.append_nil, NameOffer.mk.injEq, true_and, and_true]
    cases matching stream.word names <;> rfl

/-- A source of names adds something only if it is allowed. -/
theorem flatten_allowed (s : Session) (typed : Text) (allowed : Bool) (source : NameSource) :
    (((if allowed then [source] else []).map (NameSource.names s)).map (matching typed)).flatten =
      if allowed then matching typed (source.names s) else [] := by
  cases allowed with
  | false => rfl
  | true => simp

namespace Engine

variable {c : CompletionSettings} {s : Session} {d : Disk}

/-- The names that the sources allowed by the settings know, source by source. -/
theorem completeWord_sources (stream : TokenStream) (present : Nat) :
    let found := ((c.sources.map (NameSource.names s)).map (matching stream.word)).flatten
    (engineFor c s d).completeWord stream present =
      ⟨found, if !found.isEmpty then some (stream.last.position.column - 1) else none, []⟩ := by
  have hnames : (engineFor c s d).names = (c.sources.map (NameSource.names s)).map completeFrom := by
    rw [List.map_map]
    rfl
  simp only [completeWord, hnames, completeFromAll_sources]

theorem inStep_completeWord (stream : TokenStream) (present : Nat) :
    ((engineFor c s d).completeWord stream present).InStep := by
  rw [completeWord_sources]
  split
  · rename_i hfound
    exact .placed (by simpa using hfound) _ _
  · rename_i hfound
    constructor
    · intro _
      simpa using hfound
    · simp

theorem inStep_completeAfter (stream : TokenStream) (present : Nat) :
    ((engineFor c s d).completeAfter stream present).InStep := by
  unfold completeAfter
  cases stream.case with
  | nothing => exact .empty
  | word => exact inStep_completeWord stream present
  | afterDot | memberWord =>
    simp only [engineFor]
    by_cases hallowed : c.members = true
    · rw [if_pos hallowed]
      exact inStep_completeMembers s stream present
    · rw [if_neg hallowed]
      exact .empty

theorem inStep_completeInString (line : Text) (quote cursor present : Nat) :
    ((engineFor c s d).completeInString line quote cursor present).InStep := by
  unfold completeInString
  simp only [engineFor]
  by_cases hallowed : c.filenames = true
  · rw [if_pos hallowed]
    exact (inStep_completeFilename d c.showHiddenFiles _ _ present).moved _
  · rw [if_neg hallowed]
    exact .empty

theorem inStep_complete (prior : List Text) (line : Text) (cursor present : Nat) :
    ((engineFor c s d).complete prior line cursor present).InStep := by
  unfold complete
  split
  · exact .empty
  · cases cursorPlace prior (line.take cursor) with
    | after stream => exact inStep_completeAfter stream present
    | inString column => exact inStep_completeInString line column _ present
    | unusable reason => exact .empty

/-- Where a word is called for, the engine asks the sources of names. -/
theorem complete_word {prior : List Text} {line : Text} {cursor : Nat} {stream : TokenStream}
    (hline : ¬ LeadsWithCommand line) (hplace : cursorPlace prior (line.take cursor) = .after stream)
    (hcase : stream.case = .word) (present : Nat) :
    (engineFor c s d).complete prior line cursor present =
      (engineFor c s d).completeWord stream present := by
  have hsome : line ≠ [] := by
    rintro rfl
    obtain ⟨reason, hnone⟩ := cursorPlace_empty prior
    rw [List.take_nil, hnone] at hplace
    simp at hplace
  rw [← isCommandLine_iff (c := c) (s := s) (d := d), Bool.not_eq_true] at hline
  rw [complete_eq_completeAt present hsome hline, hplace, completeAt, completeAfter, hcase]

end Engine

/-- **Without a place nothing is added, and names are offered exactly.**  Completion
    adds to the candidates collected before exactly if it gives a place.  Where a
    word is called for, it adds the names that begin with the word: of the
    language, then variables and methods, then imported classes, then classes, as
    far as the settings allow these sources. -/
theorem candidates_collected (c : CompletionSettings) (s : Session) (d : Disk) (line : Text)
    (cursor : Nat) (collected : List Text) :
    let result := (engineFor c s d).completeOnto s.buffer line cursor collected
    (result.1 = none → result.2 = collected) ∧
      (∀ place, result.1 = some place → ∃ added, added ≠ [] ∧ result.2 = collected ++ added) ∧
      ∀ stream, ¬ LeadsWithCommand line →
        cursorPlace s.buffer (line.take cursor) = .after stream → stream.case = .word →
          ∃ language own imported classes,
            ListsNames stream.word languageNames language ∧ ListsNames stream.word s.ownNames own ∧
              ListsNames stream.word s.importedNames imported ∧
              ListsNames stream.word s.classes.names classes ∧
              result.2 = collected ++ (if c.keywords then language else []) ++
                (if c.bindings then own else []) ++ (if c.imports then imported else []) ++
                (if c.customClasses then classes else []) := by
  intro result
  have hstep := Engine.inStep_complete (c := c) (s := s) (d := d) s.buffer line cursor collected.length
  refine ⟨?_, ?_, ?_⟩
  · intro hnone
    change collected ++ _ = collected
    rw [hstep.nothing hnone, List.append_nil]
  · intro place hplace
    exact ⟨_, hstep.something place hplace, rfl⟩
  · intro stream hline hplace hcase
    refine ⟨_, _, _, _, listsNames_matching _ _, listsNames_matching _ _, listsNames_matching _ _,
      listsNames_matching _ _, ?_⟩
    change collected ++ (Engine.complete _ _ _ _ _).candidates = _
    rw [Engine.complete_word hline hplace hcase, Engine.completeWord_sources]
    simp only [CompletionSettings.sources, List.map_append, List.flatten_append,
      flatten_allowed, NameSource.names, List.append_assoc]

/-- The variable `total` is added for `to`, as one of the session's names, and
    nothing is added for `def to`. -/
theorem candidates_collected_total :
    let s := Session.new.record "def total = 1".toList
    let e := engineFor .default s ⟨.dir [], [], none⟩
    ¬ LeadsWithCommand "to".toList ∧
      (∃ place added, e.completeOnto s.buffer "to".toList 2 ["kept".toList] =
        (some place, "kept".toList :: added) ∧ "total".toList ∈ added) ∧
      e.completeOnto s.buffer "def to".toList 6 ["kept".toList] = (none, ["kept".toList]) := by
  intro s e
  have hline : ¬ LeadsWithCommand "to".toList := by
    rw [← isCommandLine_iff (c := .default) (s := s) (d := ⟨.dir [], [], none⟩)]
    decide +kernel
  have hplace : cursorPlace s.buffer ("to".toList.take 2) =
      .after ⟨⟨.name, "to".toList, ⟨1, 1⟩⟩, []⟩ := by decide +kernel
  have hsome : (e.completeOnto s.buffer "to".toList 2 ["kept".toList]).1 = some 0 := by decide +kernel
  have hnone : (e.completeOnto s.buffer "def to".toList 6 ["kept".toList]).1 = none := by decide +kernel
  obtain ⟨-, -, hword⟩ := candidates_collected .default s ⟨.dir [], [], none⟩ "to".toList 2
    ["kept".toList]
  obtain ⟨hkept, -, -⟩ := candidates_collected .default s ⟨.dir [], [], none⟩ "def to".toList 6
    ["kept".toList]
  obtain ⟨language, own, imported, classes, -, hown, -, -, hadded⟩ := hword _ hline hplace rfl
  refine ⟨hline, ⟨0, language ++ own ++ imported ++ classes, ?_, ?_⟩, ?_⟩
  · refine Prod.ext hsome ?_
    refine hadded.trans ?_
    simp [CompletionSettings.default]
  · have htotal : "total".toList ∈ own := (hown.exact _).mpr (by decide +kernel)
    exact List.mem_append_left _ (List.mem_append_left _ (List.mem_append_right _ htotal))
  · exact Prod.ext hnone (hkept hnone)

end GroovyShell
