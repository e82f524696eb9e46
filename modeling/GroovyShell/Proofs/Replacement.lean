/-
  GroovyShell/Proofs/Replacement.lean
  ===================================
  **What a suggestion replaces.**

  A suggestion for a name or a member is inserted from the column of the word
  that is typed up to the cursor.  The word is the beginning of what is inserted.
  What stands between the word and the cursor is not: white space and comments
  there are replaced together with the word, although nothing of them is
  inserted again.
-/
import GroovyShell.Completion.Suggestion
import GroovyShell.Proofs.CursorToken

namespace GroovyShell

/-! ### Bytes of a line -/

theorem byteOfCharacter_le {t : Text} {i j : Nat} (h : i ≤ j) :
    byteOfCharacter t i ≤ byteOfCharacter t j := by
  obtain ⟨n, rfl⟩ := Nat.exists_eq_add_of_le h
  rw [byteOfCharacter, byteOfCharacter, List.take_add, Text.byteLength_append]
  omega

theorem byteOfCharacter_le_byteLength (t : Text) (i : Nat) : byteOfCharacter t i ≤ t.byteLength := by
  have hsplit := Text.byteLength_append (t.take i) (t.drop i)
  rw [List.take_append_drop] at hsplit
  rw [byteOfCharacter]
  omega

/-- The characters of a text that begin between two bytes. -/
def Text.between (t : Text) (start stop : Nat) : Text :=
  (t.take (charactersBefore t stop)).drop (charactersBefore t start)

theorem Text.between_characters {t : Text} {i j : Nat} (hi : i ≤ t.length) (hj : j ≤ t.length) :
    t.between (byteOfCharacter t i) (byteOfCharacter t j) = (t.take j).drop i := by
  rw [between, charactersBefore_byteOfCharacter hi, charactersBefore_byteOfCharacter hj]

/-- The part of a line that a suggestion replaces. -/
def Suggestion.replaced (sg : Suggestion) (line : Text) : Text := line.between sg.start sg.stop

/-! ### What is offered -/

theorem completeFrom_begins {names : List Text} {stream : TokenStream} {present : Nat}
    {value : Text} (h : value ∈ (completeFrom names stream present).candidates) :
    value.beginsWith stream.word = true :=
  (mem_matching.mp h).2

/-- Whatever all completers see to, they see to together. -/
theorem completeFromAll_candidates {p : Text → Prop} {completers : List NameCompleter}
    {stream : TokenStream}
    (hall : ∀ completer ∈ completers, ∀ present,
      ∀ value ∈ (completer stream present).candidates, p value) (present : Nat) :
    ∀ value ∈ (completeFromAll completers stream present).candidates, p value := by
  induction completers generalizing present with
  | nil =>
    intro value hvalue
    simp [completeFromAll] at hvalue
  | cons first rest ih =>
    intro value hvalue
    simp only [completeFromAll, List.mem_append] at hvalue
    rcases hvalue with hfirst | hrest
    · exact hall first List.mem_cons_self present value hfirst
    · have hothers := fun completer hcompleter =>
        hall completer (List.mem_cons_of_mem _ hcompleter)
      exact ih hothers _ value hrest

theorem TokenStream.name_of_case {stream : TokenStream}
    (h : stream.case = .word ∨ stream.case = .memberWord) : stream.last.kind = .name := by
  unfold TokenStream.case at h
  split at h
  · assumption
  · split at h <;> simp at h
  · simp at h

theorem completeMembers_extends {s : Session} {stream : TokenStream} {present column : Nat}
    {value : Text} (hplace : (completeMembers s stream present).place = some column)
    (hvalue : value ∈ (completeMembers s stream present).candidates) :
    column = stream.memberColumn ∧ value.beginsWith stream.memberWord = true := by
  unfold completeMembers at hplace hvalue
  split at hplace
  · simp [PlacedOffer.none] at hplace
  · rename_i type htype
    rw [htype] at hvalue
    dsimp only at hplace hvalue
    split at hplace
    · simp [PlacedOffer.none] at hplace
    · rename_i hfound
      rw [if_neg hfound] at hvalue
      exact ⟨(Option.some.inj hplace).symm, (mem_matching.mp hvalue).2⟩

theorem completeWord_extends {c : CompletionSettings} {s : Session} {d : Disk}
    {stream : TokenStream} {present column : Nat} {value : Text} (hname : stream.last.kind = .name)
    (hplace : ((engineFor c s d).completeWord stream present).place = some column)
    (hvalue : value ∈ ((engineFor c s d).completeWord stream present).candidates) :
    column = stream.memberColumn ∧ value.beginsWith stream.memberWord = true := by
  have hword : stream.memberWord = stream.word ∧ stream.memberColumn = stream.last.start := by
    simp [TokenStream.memberWord, TokenStream.memberColumn, TokenStream.word, hname,
      TokenKind.isDot]
  obtain ⟨hword, hcolumn⟩ := hword
  simp only [Engine.completeWord, Option.ite_none_right_eq_some, Option.some.injEq] at hplace
  rw [hword, hcolumn]
  refine ⟨hplace.2.symm, ?_⟩
  apply completeFromAll_candidates _ present value hvalue
  intro completer hcompleter present value hvalue
  obtain ⟨source, -, rfl⟩ := List.mem_map.mp hcompleter
  exact completeFrom_begins hvalue

/-- A completion goes in at the column of the word that is typed, and extends it. -/
theorem completeAfter_extends {c : CompletionSettings} {s : Session} {d : Disk}
    {stream : TokenStream} {present column : Nat} {value : Text}
    (hplace : ((engineFor c s d).completeAfter stream present).place = some column)
    (hvalue : value ∈ ((engineFor c s d).completeAfter stream present).candidates) :
    column = stream.memberColumn ∧ value.beginsWith stream.memberWord = true := by
  have hmembers : (engineFor c s d).members = if c.members then some (completeMembers s) else none :=
    rfl
  unfold Engine.completeAfter at hplace hvalue
  rw [hmembers] at hplace hvalue
  cases hcase : stream.case with
  | nothing => simp [hcase, PlacedOffer.none] at hplace
  | word =>
    rw [hcase] at hplace hvalue
    exact completeWord_extends (TokenStream.name_of_case (.inl hcase)) hplace hvalue
  | afterDot | memberWord =>
    rw [hcase] at hplace hvalue
    by_cases hallowed : c.members = true
    · rw [if_pos hallowed] at hplace hvalue
      exact completeMembers_extends hplace hvalue
    · rw [if_neg hallowed] at hplace
      simp [PlacedOffer.none] at hplace

/-! ### What is replaced -/

/-- A suggestion that is not a file name: its value extends the word that is
    typed, and its bytes go from the column of that word to the cursor. -/
theorem suggestion_span {c : CompletionSettings} {s : Session} {d : Disk} {line : Text} {k : Nat}
    {stream : TokenStream} {sg : Suggestion} (hk : k ≤ line.length)
    (hplace : cursorPlace s.buffer (line.take k) = .after stream)
    (hsg : sg ∈ suggestions c s d line (byteOfCharacter line k)) :
    sg.value.beginsWith stream.memberWord = true ∧
      sg.start = min (byteOfCharacter line stream.memberColumn) (byteOfCharacter line k) ∧
      sg.stop = byteOfCharacter line k := by
  have hstop : min (byteOfCharacter line k) line.byteLength = byteOfCharacter line k :=
    Nat.min_eq_left (byteOfCharacter_le_byteLength line k)
  simp only [suggestions, Engine.suggest, hstop, charactersBefore_byteOfCharacter hk] at hsg
  split at hsg
  · rename_i column hcolumn
    obtain ⟨value, hvalue, rfl⟩ := List.mem_map.mp hsg
    unfold Engine.complete at hcolumn hvalue
    split at hcolumn
    · simp [PlacedOffer.none] at hcolumn
    · rename_i hcommand
      rw [if_neg hcommand, hplace] at hvalue
      rw [hplace] at hcolumn
      obtain ⟨rfl, hbegins⟩ := completeAfter_extends hcolumn hvalue
      exact ⟨hbegins, rfl, rfl⟩
  · simp at hsg

/-- Text that begins with white space or a comment does not go on with a value
    that has neither. -/
theorem Text.not_beginsWith_gap {value word trailing : Text} (hgap : GapText [] trailing)
    (hsome : trailing ≠ []) (hplain : ∀ c ∈ value, isBlank c = false ∧ c ≠ '/') :
    ¬ value.beginsWith (word ++ trailing) = true := by
  intro hbegins
  obtain ⟨rest, rfl⟩ := beginsWith_iff.mp hbegins
  obtain ⟨c, hc, hmark⟩ := hgap.head_mark hsome
  have hin : c ∈ trailing := List.mem_of_mem_head? hc
  obtain ⟨hblank, hslash⟩ := hplain c (by simp [hin])
  rcases hmark with hmark | hmark
  · simp [hmark] at hblank
  · exact hslash hmark

/-- The word that is typed begins at the column from which it is replaced. -/
theorem TokenStream.word_at_column {stream : TokenStream} {front typed trailing : Text}
    (htyped : typed = front ++ stream.last.text ++ trailing)
    (hcolumn : stream.last.position.column = 1 + front.length) :
    typed.drop stream.memberColumn = stream.memberWord ++ trailing ∧
      stream.memberColumn ≤ typed.length := by
  have hstart : stream.last.start = front.length := by
    rw [Token.start, hcolumn, Nat.add_sub_cancel_left]
  unfold memberColumn memberWord
  rw [hstart, htyped]
  split
  · constructor
    · rw [← List.length_append, List.drop_left, List.nil_append]
    · simp
  · constructor
    · rw [List.append_assoc, List.drop_left]
    · simp

/-- **What a suggestion replaces.**  It replaces the word that is typed, which its
    value extends, and the gap between that word and the cursor.  The value
    extends all that it replaces exactly when there is no such gap. -/
theorem suggestion_replaces (c : CompletionSettings) (s : Session) (d : Disk) {line : Text} {k : Nat}
    {stream : TokenStream} {sg : Suggestion} (hline : '\n' ∉ line) (hk : k ≤ line.length)
    (hplace : cursorPlace s.buffer (line.take k) = .after stream)
    (hsg : sg ∈ suggestions c s d line (byteOfCharacter line k)) :
    ∃ front trailing, line.take k = front ++ stream.last.text ++ trailing ∧
      stream.last.position.column = 1 + front.length ∧ GapText [] trailing ∧
      sg.replaced line = stream.memberWord ++ trailing ∧
      sg.value.beginsWith stream.memberWord = true ∧
      (trailing = [] → sg.value.beginsWith (sg.replaced line) = true) ∧
      ((∀ c ∈ sg.value, isBlank c = false ∧ c ≠ '/') →
        (sg.value.beginsWith (sg.replaced line) = true ↔ trailing = [])) := by
  have htake : '\n' ∉ line.take k := fun h => hline (List.mem_of_mem_take h)
  obtain ⟨front, trailing, htyped, hcolumn, hgap⟩ := cursorPlace_after htake hplace
  obtain ⟨hbegins, hstart, hstop⟩ := suggestion_span hk hplace hsg
  obtain ⟨hword, hle⟩ := TokenStream.word_at_column htyped hcolumn
  have hcursor : stream.memberColumn ≤ k := hle.trans (List.length_take_le k line)
  have hreplaced : sg.replaced line = stream.memberWord ++ trailing := by
    rw [Suggestion.replaced, hstart, hstop, Nat.min_eq_left (byteOfCharacter_le hcursor),
      Text.between_characters (hcursor.trans hk) hk, hword]
  have hnone : trailing = [] → sg.value.beginsWith (sg.replaced line) = true := by
    rintro rfl
    rw [hreplaced, List.append_nil]
    exact hbegins
  refine ⟨front, trailing, htyped, hcolumn, hgap, hreplaced, hbegins, hnone, ?_⟩
  intro hplain
  refine ⟨?_, hnone⟩
  intro hextends
  by_contra hsome
  rw [hreplaced] at hextends
  exact Text.not_beginsWith_gap hgap hsome hplain hextends

/-- Behind a blank the word is completed all the same, and the blank is lost. -/
theorem suggestion_replaces_blank :
    ∃ sg ∈ suggestions ⟨true, true, true, true, true, true, false⟩ .new ⟨.dir [], [], none⟩
        "pri ".toList (byteOfCharacter "pri ".toList 4),
      sg.replaced "pri ".toList = "pri ".toList ∧
        ¬ sg.value.beginsWith (sg.replaced "pri ".toList) = true := by
  have hplace : cursorPlace Session.new.buffer ("pri ".toList.take 4) =
      .after ⟨⟨.name, "pri".toList, ⟨1, 1⟩⟩, []⟩ := by decide +kernel
  have hsg : (⟨"private".toList, 0, 4, false⟩ : Suggestion) ∈
      suggestions ⟨true, true, true, true, true, true, false⟩ .new ⟨.dir [], [], none⟩
        "pri ".toList (byteOfCharacter "pri ".toList 4) := by decide +kernel
  have hreplaced : (⟨"private".toList, 0, 4, false⟩ : Suggestion).replaced "pri ".toList =
      "pri ".toList := by decide +kernel
  have hmarks : ("private".toList.all fun c => !isBlank c && c != '/') = true := by decide +kernel
  have hplain : ∀ c ∈ "private".toList, isBlank c = false ∧ c ≠ '/' := by
    intro c hc
    simpa using List.all_eq_true.mp hmarks c hc
  obtain ⟨front, trailing, -, -, -, hword, -, -, hexact⟩ :=
    suggestion_replaces _ _ _ (by decide) (by decide) hplace hsg
  refine ⟨_, hsg, hreplaced, ?_⟩
  intro hextends
  have hnone := (hexact hplain).mp hextends
  rw [hreplaced, hnone] at hword
  exact absurd hword (by decide +kernel)

end GroovyShell
