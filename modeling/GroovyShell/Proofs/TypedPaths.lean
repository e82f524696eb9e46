/-
  GroovyShell/Proofs/TypedPaths.lean
  ==================================
  **File names are offered where they extend what is typed.**

  What is typed of a path is a directory, up to its last slash, and the beginning of a
  name in it (`IsSplit`).  The directory is the current one where nothing is typed of
  it, and a tilde with a slash behind it is the home directory (`DirectoryMeant`).  The
  names offered are those of the entries that go on with what is typed
  (`AdmitsEntry`), and each of them, put behind the directory as typed, is there.

  Two kinds of text are read otherwise.  A tilde alone is read as if its slash were
  typed as well, and the place counts that slash.  Where two slashes follow a tilde,
  the home directory is forgotten: the path from the second slash on is taken, from
  the root.
-/
import GroovyShell.Proofs.ExactCandidates
import GroovyShell.Proofs.ListedEntries

namespace GroovyShell

/-! ### What is typed, taken apart -/

/-- `IsSplit typed directory word`: a typed path is a directory up to the last slash and
    a word without any. -/
structure IsSplit (typed directory word : Text) : Prop where
  whole : directory ++ word = typed
  bare : '/' ∉ word
  closed : directory = [] ∨ ∃ above, directory = above ++ ['/']

theorem exists_isSplit (typed : Text) : ∃ directory word, IsSplit typed directory word := by
  induction typed using List.reverseRecOn with
  | nil => exact ⟨[], [], rfl, by simp, .inl rfl⟩
  | append_singleton typed c ih =>
    obtain ⟨directory, word, rfl, hbare, hclosed⟩ := ih
    by_cases hc : c = '/'
    · exact ⟨directory ++ word ++ [c], [], by simp, by simp, .inr ⟨directory ++ word, by rw [hc]⟩⟩
    · exact ⟨directory, word ++ [c], by simp, by simp [hbare, Ne.symm hc], hclosed⟩

/-- A typed path is taken apart in the one way there is, a tilde alone excepted. -/
theorem IsSplit.ofText {typed directory word : Text} (h : IsSplit typed directory word)
    (htyped : typed ≠ ['~']) : TypedPath.ofText typed = ⟨directory, word⟩ := by
  have hlast : typed.lastPart '/' = word := by
    rw [← h.whole, Text.lastPart_append '/' directory h.bare]
    rcases h.closed with rfl | ⟨above, rfl⟩
    · rfl
    · rw [Text.lastPart_append_mark]
      rfl
  have htake : typed.take (typed.length - word.length) = directory := by
    rw [← h.whole, List.length_append, Nat.add_sub_cancel, List.take_left]
  rw [TypedPath.ofText, if_neg htyped]
  simp only [hlast, htake]

theorem IsSplit.take {typed directory word : Text} (h : IsSplit typed directory word) :
    typed.take directory.length = directory := by
  rw [← h.whole, List.take_left]

theorem IsSplit.drop {typed directory word : Text} (h : IsSplit typed directory word) :
    typed.drop directory.length = word := by
  rw [← h.whole, List.drop_left]

/-! ### The directory meant -/

/-- `DirectoryMeant home directory path`: what is typed of a directory stands for a
    path. -/
inductive DirectoryMeant (home : Option Text) : Text → Text → Prop
  | current : DirectoryMeant home [] ['.']
  | home {path : Text} (hhome : home = some path) : DirectoryMeant home ['~', '/'] path
  | below {path rest : Text} (hhome : home = some path) (hrest : rest ≠ [])
      (hrelative : isAbsolute rest = false) :
      DirectoryMeant home ('~' :: '/' :: rest) (joinPath path rest)
  | plain {directory : Text} (hsome : directory ≠ []) (hplain : ¬ ['~', '/'] <+: directory) :
      DirectoryMeant home directory directory

/-- `EntryMeant home directory entry path`: an entry typed behind a directory stands for
    a path. -/
inductive EntryMeant (home : Option Text) : Text → Text → Text → Prop
  | plain {directory entry : Text} (hplain : ¬ ['~', '/'] <+: directory) :
      EntryMeant home directory entry (directory ++ entry)
  | home {path rest entry : Text} (hhome : home = some path) :
      EntryMeant home ('~' :: '/' :: rest) entry (joinPath path (rest ++ entry))

/-- The path that is meant is the one that is listed. -/
theorem DirectoryMeant.listedPath {home : Option Text} {directory path : Text}
    (h : DirectoryMeant home directory path) (word : Text) :
    TypedPath.listedPath home ⟨directory, word⟩ = some path := by
  cases h with
  | current => rfl
  | home hhome => exact hhome
  | below hhome hrest hrelative =>
    obtain ⟨c, rest, rfl⟩ := List.exists_cons_of_ne_nil hrest
    rw [hhome]
    rfl
  | plain hsome hplain =>
    have hdrop := Text.dropHead?_eq_none_iff.mpr hplain
    rw [TypedPath.listedPath, if_neg (by simpa using hsome), hdrop]

/-- The path that is listed is meant, unless two slashes are typed behind a tilde. -/
theorem directoryMeant_of_listedPath {home : Option Text} {directory word path : Text}
    (htilde : ¬ ['~', '/', '/'] <+: directory)
    (h : TypedPath.listedPath home ⟨directory, word⟩ = some path) :
    DirectoryMeant home directory path := by
  unfold TypedPath.listedPath at h
  dsimp only at h
  split at h
  · rename_i hnone
    obtain rfl : directory = [] := List.isEmpty_iff.mp hnone
    obtain rfl : ['.'] = path := by simpa using h
    exact .current
  · rename_i hsome
    split at h
    · rename_i hdrop
      obtain rfl := Text.dropHead?_eq_some_iff.mp hdrop
      exact .home h
    · rename_i rest hrest hdrop
      obtain rfl := Text.dropHead?_eq_some_iff.mp hdrop
      obtain ⟨base, hhome, rfl⟩ := Option.map_eq_some_iff.mp h
      refine .below hhome hrest ?_
      rw [← Bool.not_eq_true, isAbsolute, Text.beginsWith_iff]
      rintro ⟨below, rfl⟩
      exact htilde ⟨below, rfl⟩
    · rename_i hdrop
      obtain rfl : directory = path := by simpa using h
      exact .plain (by simpa using hsome) (Text.dropHead?_eq_none_iff.mp hdrop)

/-- Behind a slash, a name goes on with the path that is meant. -/
theorem joinPath_append (base : Text) {path : Text} (hsome : path ≠ []) (more : Text) :
    joinPath base (path ++ more) = joinPath base path ++ more := by
  unfold joinPath
  rw [isAbsolute_append hsome]
  split
  · rfl
  · split <;> simp

/-- What is listed in the directory that is meant is there, behind that directory as
    typed. -/
theorem hasEntry_typed {d : Disk} {directory path : Text} {listed : List (Text × Bool)}
    {e : Text × Bool} (hclosed : directory = [] ∨ ∃ above, directory = above ++ ['/'])
    (hmeant : DirectoryMeant d.home directory path) (hlist : d.list path = .ok listed)
    (hsound : d.root.Sound) (he : e ∈ listed) :
    ∃ full, EntryMeant d.home directory (shownEntry e) full ∧ d.HasEntry full e.2 := by
  cases hmeant with
  | current => exact ⟨_, .plain (by simp), Disk.hasEntry_here hsound hlist he⟩
  | home hhome =>
    refine ⟨_, .home hhome, ?_⟩
    obtain ⟨hname, hbare⟩ := Disk.isName_of_listed hsound hlist he
    obtain ⟨-, -, -, hsome, -⟩ := Disk.list_eq_ok hlist
    have hrelative : isAbsolute (shownEntry e) = false :=
      isAbsolute_shownEntry hbare hname.nonempty e.2
    have hjoin : ¬ (isAbsolute (shownEntry e) = true ∨ path.isEmpty = true) := by
      simp [hrelative, hsome]
    rw [List.nil_append, joinPath, if_neg hjoin]
    split
    · rename_i hslash
      obtain ⟨above, rfl⟩ : ∃ above, path = above ++ ['/'] := by
        rw [Text.finishesWith, List.isPrefixOf_iff_prefix, List.reverse_prefix] at hslash
        exact hslash.imp fun _ => Eq.symm
      rw [List.append_assoc]
      exact Disk.hasEntry_behind hsound hlist he
    · exact Disk.hasEntry_below hsound hlist he
  | @below base rest hhome hrest hrelative =>
    refine ⟨_, .home hhome, ?_⟩
    obtain ⟨above, rfl⟩ : ∃ above, rest = above ++ ['/'] := by
      obtain ⟨above, habove⟩ := hclosed.resolve_left (by simp)
      rcases above with _ | ⟨tilde, _ | ⟨slash, above⟩⟩
      · simp at habove
      · simp [hrest] at habove
      · simp only [List.cons_append, List.cons.injEq] at habove
        exact ⟨above, habove.2.2⟩
    have habove : above ≠ [] := by
      rintro rfl
      simp [isAbsolute, Text.beginsWith, List.isPrefixOf] at hrelative
    rw [joinPath_append base habove] at hlist
    rw [joinPath_append base hrest, joinPath_append base habove, List.append_assoc]
    exact Disk.hasEntry_behind hsound hlist he
  | plain hsome hplain =>
    refine ⟨_, .plain hplain, ?_⟩
    obtain ⟨above, rfl⟩ := hclosed.resolve_left hsome
    rw [List.append_assoc]
    exact Disk.hasEntry_behind hsound hlist he

/-! ### The entries offered -/

/-- `AdmitsEntry showHidden word name`: the name goes on with the word, and if it is
    hidden it is asked for. -/
def AdmitsEntry (showHidden : Bool) (word name : Text) : Prop :=
  word <+: name ∧ (['.'] <+: name → showHidden = true ∨ ['.'] <+: word)

instance (showHidden : Bool) (word name : Text) : Decidable (AdmitsEntry showHidden word name) :=
  inferInstanceAs (Decidable (_ ∧ _))

theorem offers_iff (p : TypedPath) (showHidden : Bool) (name : Text) :
    p.offers showHidden name = true ↔ AdmitsEntry showHidden p.word name := by
  simp only [TypedPath.offers, AdmitsEntry, Text.beginsWith, Bool.and_eq_true, Bool.or_eq_true,
    Bool.not_eq_true', List.isPrefixOf_iff_prefix]
  refine and_congr_right fun _ => ?_
  rw [← Bool.not_eq_true, List.isPrefixOf_iff_prefix, or_comm, imp_iff_not_or]

/-- `ListsEntries showHidden word entries found`: what is found are the entries that go
    on with the word, as they are shown, by their bytes. -/
structure ListsEntries (showHidden : Bool) (word : Text) (entries : List (Text × Bool))
    (found : List Text) : Prop where
  rising : found.Pairwise fun a b => ¬ b.bytes < a.bytes
  exact : found.Perm ((entries.filter fun e => AdmitsEntry showHidden word e.1).map shownEntry)

theorem listsEntries_inOrder (p : TypedPath) (showHidden : Bool) (entries : List (Text × Bool)) :
    ListsEntries showHidden p.word entries
      (inOrder ((entries.filter fun e => p.offers showHidden e.1).map shownEntry)) where
  rising := (inOrder_sorted _).imp fun h => mt Text.bytes_lt_bytes.mp h
  exact := by
    have hfilter : (entries.filter fun e => p.offers showHidden e.1) =
        entries.filter fun e => AdmitsEntry showHidden p.word e.1 :=
      List.filter_congr fun e _ => Bool.eq_iff_iff.mpr
        ((offers_iff p showHidden e.1).trans decide_eq_true_iff.symm)
    rw [hfilter]
    exact List.mergeSort_perm _ _

/-- `ExtendsTyped d showHidden typed offset candidates`: from the offset on stands the
    beginning of a name, which the candidates complete with the entries of the
    directory before it. -/
structure ExtendsTyped (d : Disk) (showHidden : Bool) (typed : Text) (offset : Nat)
    (candidates : List Text) : Prop where
  inside : offset ≤ typed.length
  split : IsSplit typed (typed.take offset) (typed.drop offset)
  listed : ∃ path entries, DirectoryMeant d.home (typed.take offset) path ∧
    d.list path = .ok entries ∧ ListsEntries showHidden (typed.drop offset) entries candidates
  present : d.root.Sound → ∀ candidate ∈ candidates, ∃ full,
    EntryMeant d.home (typed.take offset) candidate full ∧
      d.HasEntry full (['/'].isSuffixOf candidate)

/-- Only the directories are shown with a slash behind their name. -/
theorem isSuffixOf_shownEntry {e : Text × Bool} (hbare : '/' ∉ e.1) :
    ['/'].isSuffixOf (shownEntry e) = e.2 := by
  obtain ⟨name, isDir⟩ := e
  cases isDir with
  | false =>
    rw [shownEntry, if_neg (by simp), ← Bool.not_eq_true, List.isSuffixOf_iff_suffix]
    exact fun hslash => hbare (hslash.subset List.mem_cons_self)
  | true =>
    rw [shownEntry, if_pos rfl, List.isSuffixOf_iff_suffix]
    exact List.suffix_append name ['/']

section

variable {d : Disk} {showHidden : Bool} {text directory word : Text} {cursor present : Nat}

/-- What is offered depends on the directory and the word alone. -/
theorem completeFilename_split (htyped : text.take cursor ≠ ['~'])
    (hsplit : IsSplit (text.take cursor) directory word) :
    completeFilename d showHidden text cursor present =
      match (TypedPath.listedPath d.home ⟨directory, word⟩).map d.list with
      | some (.ok entries) =>
        let found := (entries.filter fun e => TypedPath.offers ⟨directory, word⟩ showHidden e.1).map
          shownEntry
        if found.isEmpty then .none else ⟨inOrder found, some directory.length, []⟩
      | _ => .none := by
  have htext := hsplit.ofText htyped
  unfold completeFilename
  generalize TypedPath.ofText (text.take cursor) = typed at htext ⊢
  subst htext
  rfl

theorem IsSplit.not_tilde {typed : Text} (hsplit : IsSplit typed directory word)
    (htilde : ¬ ['~', '/', '/'] <+: typed) : ¬ ['~', '/', '/'] <+: directory :=
  fun h => htilde (h.trans ⟨word, hsplit.whole⟩)

/-- A place that is given extends what is typed. -/
theorem extendsTyped_completeFilename (htyped : text.take cursor ≠ ['~'])
    (htilde : ¬ ['~', '/', '/'] <+: text.take cursor) {offset : Nat}
    (hplace : (completeFilename d showHidden text cursor present).place = some offset) :
    ExtendsTyped d showHidden (text.take cursor) offset
      (completeFilename d showHidden text cursor present).candidates := by
  obtain ⟨directory, word, hsplit⟩ := exists_isSplit (text.take cursor)
  rw [completeFilename_split htyped hsplit] at hplace ⊢
  split at hplace
  · rename_i entries hentries
    obtain ⟨path, hpath, hlist⟩ := Option.map_eq_some_iff.mp hentries
    have hmeant := directoryMeant_of_listedPath (hsplit.not_tilde htilde) hpath
    have hlists := listsEntries_inOrder ⟨directory, word⟩ showHidden entries
    dsimp only at hplace
    split at hplace
    · simp [PlacedOffer.none] at hplace
    · rename_i hfound
      obtain rfl : directory.length = offset := by simpa using hplace
      simp only [hfound, Bool.false_eq_true, if_false]
      constructor
      · rw [← hsplit.whole, List.length_append]
        exact Nat.le_add_right _ _
      · rwa [hsplit.take, hsplit.drop]
      · rw [hsplit.take, hsplit.drop]
        exact ⟨path, entries, hmeant, hlist, hlists⟩
      · intro hsound candidate hcandidate
        obtain ⟨e, he, rfl⟩ := List.mem_map.mp (hlists.exact.mem_iff.mp hcandidate)
        have hlisted : e ∈ entries := (List.mem_filter.mp he).1
        rw [hsplit.take, isSuffixOf_shownEntry (Disk.isName_of_listed hsound hlist hlisted).2]
        exact hasEntry_typed hsplit.closed hmeant hlist hsound hlisted
  · simp [PlacedOffer.none] at hplace

/-- Where no place is given, no entry of the directory that is meant goes on with what is
    typed. -/
theorem not_admitsEntry_of_none (htyped : text.take cursor ≠ ['~'])
    (hnone : (completeFilename d showHidden text cursor present).place = none)
    (hsplit : IsSplit (text.take cursor) directory word) {path : Text}
    {entries : List (Text × Bool)} (hmeant : DirectoryMeant d.home directory path)
    (hlist : d.list path = .ok entries) {e : Text × Bool} (he : e ∈ entries) :
    ¬ AdmitsEntry showHidden word e.1 := by
  intro hadmits
  have hoffered : TypedPath.offers ⟨directory, word⟩ showHidden e.1 = true :=
    (offers_iff ⟨directory, word⟩ showHidden e.1).mpr hadmits
  rw [completeFilename_split htyped hsplit, hmeant.listedPath, Option.map_some, hlist] at hnone
  dsimp only at hnone
  split at hnone
  · rename_i hfound
    rw [List.isEmpty_iff, List.map_eq_nil_iff, List.filter_eq_nil_iff] at hfound
    exact hfound e he hoffered
  · simp at hnone

/-- A tilde alone is read with a slash behind it, which the place counts. -/
theorem completeFilename_tilde (htyped : text.take cursor = ['~']) :
    completeFilename d showHidden text cursor present =
      completeFilename d showHidden ['~', '/'] 2 present := by
  unfold completeFilename
  rw [htyped]
  rfl

/-- A place is where the directory ends. -/
theorem eq_of_place {offset : Nat}
    (hplace : (completeFilename d showHidden text cursor present).place = some offset) :
    offset = (TypedPath.ofText (text.take cursor)).directory.length := by
  unfold completeFilename at hplace
  dsimp only at hplace
  split at hplace
  · split at hplace
    · simp [PlacedOffer.none] at hplace
    · simpa using hplace.symm
  · simp [PlacedOffer.none] at hplace

theorem listedPath_absolute (home : Option Text) (habsolute : isAbsolute directory = true) :
    TypedPath.listedPath home ⟨directory, word⟩ = some directory := by
  obtain ⟨rest, rfl⟩ := Text.beginsWith_iff.mp habsolute
  simp [TypedPath.listedPath, Text.dropHead?, Text.beginsWith, List.isPrefixOf]

theorem listedPath_tilde_absolute (home : Option Text) (habsolute : isAbsolute directory = true) :
    TypedPath.listedPath home ⟨'~' :: '/' :: directory, word⟩ = home.map fun _ => directory := by
  obtain ⟨rest, rfl⟩ := Text.beginsWith_iff.mp habsolute
  have hjoin (base : Text) : joinPath base ('/' :: rest) = '/' :: rest := by
    rw [joinPath, if_pos (.inl habsolute)]
  simp [TypedPath.listedPath, Text.dropHead?, Text.beginsWith, hjoin]

/-- Behind a tilde and its slash, a path from the root is taken as it is. -/
theorem completeFilename_tilde_absolute {rest : Text}
    (htyped : text.take cursor = '~' :: '/' :: '/' :: rest) :
    completeFilename d showHidden text cursor present =
      if d.home.isSome then
        let absolute := completeFilename d showHidden ('/' :: rest) (rest.length + 1) present
        { absolute with place := absolute.place.map (· + 2) }
      else .none := by
  obtain ⟨directory, word, hsplit⟩ := exists_isSplit ('/' :: rest)
  have hsome : directory ≠ [] := by
    rintro rfl
    have hword : word = '/' :: rest := hsplit.whole
    exact hsplit.bare (hword ▸ List.mem_cons_self)
  have habsolute : isAbsolute directory = true := by
    rw [← isAbsolute_append hsome word, hsplit.whole]
    rfl
  have hbehind : IsSplit (text.take cursor) ('~' :: '/' :: directory) word := by
    refine ⟨by rw [htyped, ← hsplit.whole]; rfl, hsplit.bare, .inr ?_⟩
    obtain ⟨above, rfl⟩ := hsplit.closed.resolve_left hsome
    exact ⟨'~' :: '/' :: above, rfl⟩
  have htake : ('/' :: rest).take (rest.length + 1) = '/' :: rest :=
    List.take_of_length_le (Nat.le_refl _)
  rw [completeFilename_split (by simp [htyped]) hbehind,
    completeFilename_split (by simp [htake]) (htake.symm ▸ hsplit),
    listedPath_tilde_absolute d.home habsolute, listedPath_absolute d.home habsolute]
  have hmoved (found : List Text) :
      (if found.isEmpty then .none else ⟨inOrder found, some (directory.length + 2), []⟩) =
        let offer : PlacedOffer :=
          if found.isEmpty then .none else ⟨inOrder found, some directory.length, []⟩
        { offer with place := offer.place.map (· + 2) } := by
    cases found <;> rfl
  cases d.home with
  | none => rfl
  | some home =>
    simp only [Option.map_some, Option.isSome_some, if_true]
    cases d.list directory with
    | error => rfl
    | ok entries => exact hmoved _

end

/-- **File names extend what is typed.**  Where a place is given for what stands before
    the cursor, the directory before that place is listed, and what is offered are
    those of its entries that go on with the rest; where none is given there is no such
    entry.  A tilde alone and two slashes behind a tilde are read as other paths, and a
    place behind the tilde alone is one character too far. -/
theorem filenames_extend_typed (d : Disk) (showHidden : Bool) (text : Text)
    (cursor present : Nat) :
    let typed := text.take cursor
    let offer := completeFilename d showHidden text cursor present
    (typed ≠ ['~'] → ¬ ['~', '/', '/'] <+: typed →
      (∀ offset, offer.place = some offset →
        ExtendsTyped d showHidden typed offset offer.candidates) ∧
      (offer.place = none → offer.candidates = [] ∧
        ∀ directory word path entries, IsSplit typed directory word →
          DirectoryMeant d.home directory path → d.list path = .ok entries →
            ∀ e ∈ entries, ¬ AdmitsEntry showHidden word e.1)) ∧
    (typed = ['~'] → offer = completeFilename d showHidden ['~', '/'] 2 present ∧
      ∀ offset, offer.place = some offset → offset = 2) ∧
    ∀ rest, typed = '~' :: '/' :: '/' :: rest →
      offer = if d.home.isSome then
          let absolute := completeFilename d showHidden ('/' :: rest) (rest.length + 1) present
          { absolute with place := absolute.place.map (· + 2) }
        else .none := by
  intro typed offer
  refine ⟨fun htyped htilde => ⟨fun offset => extendsTyped_completeFilename htyped htilde, ?_⟩,
    fun htyped => ⟨completeFilename_tilde htyped, ?_⟩, fun rest => completeFilename_tilde_absolute⟩
  · intro hnone
    refine ⟨(inStep_completeFilename d showHidden text cursor present).nothing hnone, ?_⟩
    intro directory word path entries hsplit hmeant hlist e he
    exact not_admitsEntry_of_none htyped hnone hsplit hmeant hlist he
  · intro offset hplace
    rw [eq_of_place hplace, show text.take cursor = ['~'] from htyped]
    rfl

/-- For `~/docs/al` the entries `album/` and `alpha.txt` are offered behind the last
    slash, and are there; for `~/docs/b` there are none.  For a tilde alone the place is
    behind a slash that is not typed, and for `~//h/` the directory `/h` is listed,
    which `~/h` is not. -/
theorem filenames_extend_typed_docs :
    let docs := [("album".toList, Node.dir []), ("alpha.txt".toList, .file .binary),
      (".alps".toList, .file .binary)]
    let d : Disk := ⟨.dir [("h".toList, .dir [("docs".toList, .dir docs)])], [], some "/h".toList⟩
    d.root.Sound ∧
      ExtendsTyped d false "~/docs/al".toList 7 ["album/".toList, "alpha.txt".toList] ∧
      d.HasEntry "/h/docs/album/".toList true ∧
      completeFilename d false "~/docs/b".toList 8 0 = .none ∧
      completeFilename d false "~".toList 1 0 = ⟨["docs/".toList], some 2, []⟩ ∧
      completeFilename d false "~//h/".toList 5 0 = ⟨["docs/".toList], some 5, []⟩ ∧
      d.list "/h/h/".toList = .error .notFound := by
  intro docs d
  have hdocs : (Node.dir docs).Sound := by
    refine .dir (by decide +kernel) (by decide +kernel) ?_
    simp only [docs, List.forall_mem_cons, List.not_mem_nil, false_imp_iff, implies_true, and_true]
    exact ⟨.dir (by simp) .nil (by simp), .file _, .file _⟩
  have hhome : (Node.dir [("docs".toList, .dir docs)]).Sound :=
    .dir (by decide +kernel) (by decide +kernel) (by simpa using hdocs)
  have hsound : d.root.Sound := .dir (by decide +kernel) (by decide +kernel) (by simpa using hhome)
  have hoffer : completeFilename d false "~/docs/al".toList 9 0 =
      ⟨["album/".toList, "alpha.txt".toList], some 7, []⟩ := by cbv
  obtain ⟨hplain, -, -⟩ := filenames_extend_typed d false "~/docs/al".toList 9 0
  obtain ⟨hplaced, -⟩ := hplain (by decide) (by decide)
  have hextends :
      ExtendsTyped d false "~/docs/al".toList 7 ["album/".toList, "alpha.txt".toList] := by
    have := hplaced 7 (by rw [hoffer])
    rwa [hoffer] at this
  refine ⟨hsound, hextends, ?_, by cbv, by cbv, by cbv, by cbv⟩
  obtain ⟨full, hfull, hentry⟩ := hextends.present hsound "album/".toList (by simp)
  have hmeant : EntryMeant d.home ('~' :: '/' :: "docs/".toList) "album/".toList full := hfull
  cases hmeant with
  | plain hplain => simp at hplain
  | home hhome =>
    cases hhome
    exact hentry

end GroovyShell
