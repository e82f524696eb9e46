/-
  GroovyShell/Proofs/ListedEntries.lean
  =====================================
  **What a directory lists is there.**

  A path that can be listed leads to a directory, and any of the names listed,
  written behind the path, leads to the entry of that name: `Disk.hasEntry_behind` for
  a path that ends with a slash, `Disk.hasEntry_below` for any other.  Links may stand
  anywhere on the way.
-/
import GroovyShell.Completion.Filenames
import GroovyShell.Proofs.FollowedPaths

namespace GroovyShell

/-! ### An entry as it is shown -/

theorem parts_shownEntry {name : Text} (hname : '/' ∉ name) (isDir : Bool) :
    (shownEntry (name, isDir)).parts '/' = name :: if isDir then [[]] else [] := by
  cases isDir with
  | false => exact Text.parts_of_not_mem hname
  | true =>
    rw [shownEntry, if_pos rfl, Text.parts_append_mark, Text.parts_of_not_mem hname]
    rfl

theorem isAbsolute_shownEntry {name : Text} (hname : '/' ∉ name) (hsome : name ≠ [])
    (isDir : Bool) : isAbsolute (shownEntry (name, isDir)) = false := by
  obtain ⟨c, rest, rfl⟩ := List.exists_cons_of_ne_nil hsome
  have hc : '/' ≠ c := fun same => hname (same ▸ List.mem_cons_self)
  cases isDir <;> simp [isAbsolute, shownEntry, Text.beginsWith, List.isPrefixOf, hc]

theorem isAbsolute_append {path : Text} (hsome : path ≠ []) (more : Text) :
    isAbsolute (path ++ more) = isAbsolute path := by
  obtain ⟨c, rest, rfl⟩ := List.exists_cons_of_ne_nil hsome
  simp [isAbsolute, Text.beginsWith, List.isPrefixOf]

/-! ### Trees -/

/-- `n.Sound`: every directory in the tree has names for its entries, each once. -/
inductive Node.Sound : Node → Prop
  | file (content : FileContent) : Sound (.file content)
  | link (target : Text) : Sound (.link target)
  | dir {entries : List (Text × Node)} (names : ∀ e ∈ entries, IsName e.1 ∧ '/' ∉ e.1)
      (once : (entries.map (·.1)).Nodup) (below : ∀ e ∈ entries, Sound e.2) : Sound (.dir entries)

/-- What can be reached in a sound tree is sound. -/
theorem Node.Sound.at? {names : List Text} {n m : Node} (h : n.Sound)
    (hm : n.at? names = some m) : m.Sound := by
  induction names generalizing n with
  | nil =>
    simp only [Node.at?, Option.some.injEq] at hm
    exact hm ▸ h
  | cons name rest ih =>
    cases h with
    | file | link => simp [Node.at?] at hm
    | dir names once below =>
      simp only [Node.at?] at hm
      obtain ⟨next, hnext, hrest⟩ := Option.bind_eq_some_iff.mp hm
      obtain ⟨before, after, rfl, -⟩ := List.lookup_eq_some_iff.mp hnext
      exact ih (below (name, next) (by simp)) hrest

/-- Where names stand once, each entry is found by its name. -/
theorem lookup_of_mem {entries : List (Text × Node)} (once : (entries.map (·.1)).Nodup)
    {e : Text × Node} (he : e ∈ entries) : entries.lookup e.1 = some e.2 := by
  obtain ⟨before, after, rfl⟩ := List.append_of_mem he
  refine List.lookup_eq_some_iff.mpr ⟨before, after, rfl, fun other hother => ?_⟩
  rw [List.map_append, List.nodup_append] at once
  exact bne_iff_ne.mpr fun same =>
    once.2.2 other.1 (List.mem_map_of_mem hother) e.1 (by simp) same.symm

namespace Disk

variable {d : Disk} {use : PathUse} {links left : Nat} {here there : List Text} {part : Text}
  {rest parts : List Text} {entries : List (Text × Node)}

/-! ### Names behind a path -/

theorem start_append {path : Text} (hsome : path ≠ []) (more : Text) :
    d.start (path ++ more) = d.start path := by
  rw [start, start, isAbsolute_append hsome]

/-- `d.HasEntry path isDir`: the path leads to something that is there, which is a
    directory as `isDir` says.  A link at the end is not followed, and how long a path
    may be is left aside. -/
def HasEntry (d : Disk) (path : Text) (isDir : Bool) : Prop :=
  ∃ names n, d.follow .place 40 (d.start path) (path.parts '/') = .ok (.existing names) ∧
    d.nodeAt names = some n ∧ n.isDir = isDir

/-- Only a directory that is there can be listed. -/
theorem list_eq_ok {path : Text} {listed : List (Text × Bool)} (h : d.list path = .ok listed) :
    ∃ there entries left, path ≠ [] ∧ d.Arrives 40 (d.start path) (path.parts '/') left there ∧
      d.nodeAt there = some (.dir entries) ∧ listed = entries.map fun e => (e.1, e.2.isDir) := by
  unfold list at h
  split at h
  · rename_i entries hnode
    obtain ⟨there, hthere, hdir⟩ := node_eq_ok hnode
    obtain ⟨hsome, hfollow⟩ := destination_eq_ok hthere
    obtain ⟨left, hway⟩ := arrives_of_follow hfollow
    exact ⟨there, entries, left, hsome, hway, hdir, by simpa using h.symm⟩
  · simp at h
  · simp at h

/-- An entry as it is shown leads from its directory to it. -/
theorem follow_shownEntry (hdir : d.nodeAt here = some (.dir entries))
    (hsound : (Node.dir entries).Sound) {e : Text × Node} (he : e ∈ entries) (links : Nat) :
    d.follow .place links here ((shownEntry (e.1, e.2.isDir)).parts '/') =
      .ok (.existing (here ++ [e.1])) := by
  cases hsound with
  | dir names once below =>
    obtain ⟨hname, hbare⟩ := names e he
    have hentry := lookup_of_mem once he
    rw [parts_shownEntry hbare, follow_name hdir hname (by simp), hentry]
    obtain ⟨name, n⟩ := e
    cases n with
    | file | link => simp [Node.isDir, follow]
    | dir inside =>
      have hinside : d.nodeAt (here ++ [name]) = some (.dir inside) :=
        (nodeAt_below hdir name).trans hentry
      simp only [Node.isDir, if_true]
      rw [follow_stay hinside (.inl rfl), follow]

/-- Where a path arrives at a directory, an entry written behind it is there. -/
theorem Arrives.hasEntry (hdir : d.nodeAt there = some (.dir entries)) (hsound : d.root.Sound)
    {path : Text} (hway : d.Arrives 40 (d.start path) parts left there)
    {e : Text × Node} (he : e ∈ entries)
    (hparts : path.parts '/' = parts ++ (shownEntry (e.1, e.2.isDir)).parts '/') :
    d.HasEntry path e.2.isDir := by
  have hentries : (Node.dir entries).Sound := hsound.at? hdir
  refine ⟨there ++ [e.1], e.2, ?_, ?_, rfl⟩
  · rw [hparts, hway.follow_append (by simp) (.inl (Text.parts_ne_nil _ _)),
      follow_shownEntry hdir hentries he]
  · cases hentries with
    | dir names once below => exact (nodeAt_below hdir e.1).trans (lookup_of_mem once he)

variable {path : Text} {listed : List (Text × Bool)} {e : Text × Bool}

/-- What is listed in a sound tree are names. -/
theorem isName_of_listed (hsound : d.root.Sound) (hlist : d.list path = .ok listed)
    (he : e ∈ listed) : IsName e.1 ∧ '/' ∉ e.1 := by
  obtain ⟨there, entries, left, -, -, hdir, rfl⟩ := list_eq_ok hlist
  obtain ⟨entry, hentry, rfl⟩ := List.mem_map.mp he
  cases hsound.at? hdir with
  | dir names once below => exact names entry hentry

/-- What is listed at a path is there, one slash behind it. -/
theorem hasEntry_below (hsound : d.root.Sound) (hlist : d.list path = .ok listed)
    (he : e ∈ listed) : d.HasEntry (path ++ '/' :: shownEntry e) e.2 := by
  obtain ⟨there, entries, left, hsome, hway, hdir, rfl⟩ := list_eq_ok hlist
  obtain ⟨entry, hentry, rfl⟩ := List.mem_map.mp he
  rw [← start_append hsome ('/' :: shownEntry (entry.1, entry.2.isDir))] at hway
  exact hway.hasEntry hdir hsound hentry (Text.parts_append_mark _ _ _)

/-- What is listed at a path with a slash at its end is there, right behind it. -/
theorem hasEntry_behind (hsound : d.root.Sound) (hlist : d.list (path ++ ['/']) = .ok listed)
    (he : e ∈ listed) : d.HasEntry (path ++ '/' :: shownEntry e) e.2 := by
  obtain ⟨there, entries, left, hsome, hway, hdir, rfl⟩ := list_eq_ok hlist
  obtain ⟨entry, hentry, rfl⟩ := List.mem_map.mp he
  rw [Text.parts_append_mark] at hway
  rw [← start_append hsome (shownEntry (entry.1, entry.2.isDir)), List.append_assoc] at hway
  exact hway.dropSlash.hasEntry hdir hsound hentry (Text.parts_append_mark _ _ _)

/-- What is listed in the working directory is there under its name alone. -/
theorem hasEntry_here (hsound : d.root.Sound) (hlist : d.list ['.'] = .ok listed)
    (he : e ∈ listed) : d.HasEntry (shownEntry e) e.2 := by
  obtain ⟨hname, hbare⟩ := isName_of_listed hsound hlist he
  have hhere : d.start (shownEntry e) = d.workingDirectory := by
    rw [start, isAbsolute_shownEntry hbare hname.nonempty]
    rfl
  obtain ⟨there, entries, left, -, hway, hdir, rfl⟩ := list_eq_ok hlist
  obtain ⟨entry, hentry, rfl⟩ := List.mem_map.mp he
  have hstart : there = d.workingDirectory := by
    cases hway with
    | stay _ _ hrest =>
      cases hrest
      rfl
    | link _ hpart => exact absurd rfl hpart.notHere
    | into _ hpart => exact absurd rfl hpart.notHere
  subst hstart
  have hparts (t : Text) : t.parts '/' = [] ++ t.parts '/' := rfl
  exact Arrives.hasEntry hdir hsound (by rw [hhere]; exact .done) hentry (hparts _)

end Disk

end GroovyShell
