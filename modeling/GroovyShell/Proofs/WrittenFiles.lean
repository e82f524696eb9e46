/-
  GroovyShell/Proofs/WrittenFiles.lean
  ====================================
  **A file is read as it was written.**

  Writing puts one node into the tree.  Whatever was there stays, and stays a
  directory, a file or a link to the same place (`Node.put_keeps`), so that a path still
  goes the way it went when it was followed for writing, and arrives at the new file.
-/
import GroovyShell.Config.Writer
import GroovyShell.Proofs.FollowedPaths
import GroovyShell.Proofs.WrittenSettings

namespace GroovyShell

/-! ### Putting a node into a tree -/

namespace Node

theorem lookup_entry (part other : Text) (n : Node) (rest : List (Text × Node)) :
    ((other, n) :: rest).lookup part = if part = other then some n else rest.lookup part := by
  rw [List.lookup_cons]
  split <;> simp_all

theorem lookup_setEntry (entries : List (Text × Node)) (name : Text) (new : Node) (part : Text) :
    (setEntry name new entries).lookup part =
      if part = name then some new else entries.lookup part := by
  induction entries with
  | nil => exact lookup_entry part name new []
  | cons entry rest ih =>
    obtain ⟨other, n⟩ := entry
    rw [setEntry]
    by_cases hother : other = name
    · subst hother
      by_cases hpart : part = other <;> simp [lookup_entry, hpart]
    · rw [if_neg hother, lookup_entry, lookup_entry, ih]
      by_cases hpart : part = other
      · subst hpart
        simp [hother]
      · simp [hpart]

theorem lookup_map_entry (entries : List (Text × Node)) (name : Text) (f : Node → Node)
    (part : Text) :
    (entries.map fun e => if e.1 = name then (e.1, f e.2) else e).lookup part =
      (entries.lookup part).map (if part = name then f else id) := by
  induction entries with
  | nil => rfl
  | cons entry rest ih =>
    obtain ⟨other, n⟩ := entry
    rw [List.map_cons, lookup_entry]
    by_cases hpart : part = other
    · subst hpart
      by_cases hname : part = name <;> simp [hname]
    · by_cases hname : other = name
      · subst hname
        simp [lookup_entry, hpart, ih]
      · simp [lookup_entry, hname, hpart, ih]

variable {root : Node} {parent : List Text} {name : Text}

/-- The node that is put somewhere is found there. -/
theorem at?_put {entries : List (Text × Node)} (hparent : root.at? parent = some (.dir entries))
    (new : Node) : (put name new parent root).at? (parent ++ [name]) = some new := by
  induction parent generalizing root with
  | nil =>
    obtain rfl : root = .dir entries := Option.some.inj hparent
    simp [put, Node.at?, lookup_setEntry]
  | cons part path ih =>
    cases root with
    | file | link => simp [Node.at?] at hparent
    | dir inside =>
      obtain ⟨next, hnext, hpath⟩ := Option.bind_eq_some_iff.mp hparent
      simpa [put, Node.at?, lookup_map_entry, hnext] using ih hpath

/-- Where a file is put in the place of a file, or where nothing was, everything else
    stays where it was. -/
theorem put_keeps {content : FileContent}
    (hplace : ∀ n, root.at? (parent ++ [name]) = some n → ∃ old, n = .file old)
    {names : List Text} {n : Node} (hn : root.at? names = some n) :
    ∃ n', (put name (.file content) parent root).at? names = some n' ∧ n.Alike n' := by
  induction parent generalizing root names with
  | nil =>
    cases root with
    | file | link => exact ⟨n, hn, .refl n⟩
    | dir entries =>
      cases names with
      | nil =>
        obtain rfl := Option.some.inj hn
        exact ⟨_, rfl, .dir _ _⟩
      | cons part rest =>
        obtain ⟨next, hnext, hrest⟩ := Option.bind_eq_some_iff.mp hn
        by_cases hpart : part = name
        · subst hpart
          obtain ⟨old, rfl⟩ := hplace next (by simp [Node.at?, hnext])
          cases rest with
          | nil =>
            obtain rfl := Option.some.inj hrest
            exact ⟨.file content, by simp [put, Node.at?, lookup_setEntry], .file _ _⟩
          | cons => simp [Node.at?] at hrest
        · exact ⟨n, by simp [put, Node.at?, lookup_setEntry, hpart, hnext, hrest], .refl n⟩
  | cons above path ih =>
    cases root with
    | file | link => exact ⟨n, hn, .refl n⟩
    | dir entries =>
      cases names with
      | nil =>
        obtain rfl := Option.some.inj hn
        exact ⟨_, rfl, .dir _ _⟩
      | cons part rest =>
        obtain ⟨next, hnext, hrest⟩ := Option.bind_eq_some_iff.mp hn
        by_cases hpart : part = above
        · subst hpart
          have hbelow : ∀ m, next.at? (path ++ [name]) = some m → ∃ old, m = .file old := by
            intro m hm
            exact hplace m (by simp [Node.at?, hnext, hm])
          simpa [put, Node.at?, lookup_map_entry, hnext] using ih hbelow hrest
        · exact ⟨n, by simp [put, Node.at?, lookup_map_entry, hpart, hnext, hrest], .refl n⟩

end Node

namespace Disk

variable {d d' : Disk} {use : PathUse} {links : Nat} {here parent : List Text}
  {parts : List Text} {name path content : Text}

/-! ### What is written is read -/

/-- Where nothing but a file is at a place, a file put there keeps the tree. -/
theorem keeps_put {content : FileContent}
    (hplace : ∀ n, d.nodeAt (parent ++ [name]) = some n → ∃ old, n = .file old) :
    d.Keeps (d.put parent name (.file content)) := fun _ _ hn => Node.put_keeps hplace hn

/-- A name is free in a directory that is there. -/
theorem dir_of_free (h : d.follow use links here parts = .ok (.free parent name)) :
    ∃ entries, d.nodeAt parent = some (.dir entries) ∧ entries.lookup name = none := by
  fun_induction d.follow use links here parts with
  | case2 _ _ _ _ _ _ _ ih => exact ih h
  | case3 _ _ _ _ _ _ ih => exact ih h
  | case6 links here part rest entries hdir hplain habove hslashes hshort hnone hend =>
    obtain ⟨rfl, rfl⟩ : here = parent ∧ part = name := by simpa using h
    exact ⟨entries, hdir, hnone⟩
  | case10 _ _ _ _ _ _ _ _ _ _ _ _ _ ih => exact ih (by simpa using h)
  | case11 _ _ _ _ _ _ _ _ _ _ _ _ _ ih => exact ih h
  | case1 | case4 | case5 | case7 | case8 | case9 | case12 => simp at h

/-- A file that is there is in a directory. -/
theorem dir_of_file {file : FileContent} (h : d.nodeAt (parent ++ [name]) = some (.file file)) :
    ∃ entries, d.nodeAt parent = some (.dir entries) := by
  rw [nodeAt, Node.at?_append] at h
  obtain ⟨n, hn, hentry⟩ := Option.bind_eq_some_iff.mp h
  cases n with
  | dir entries => exact ⟨entries, hn⟩
  | file | link => simp [Node.at?] at hentry

/-- What writing a text does: it puts a file in a directory, where nothing or a file was,
    and the path leads to it. -/
theorem writeText_eq_ok (h : d.writeText path content = .ok d') :
    ∃ destination parent name entries, d.destination .write path = .ok destination ∧
      destination.names = parent ++ [name] ∧ d.nodeAt parent = some (.dir entries) ∧
      (∀ n, d.nodeAt (parent ++ [name]) = some n → ∃ old, n = .file old) ∧
      d' = d.put parent name (.file (.text content)) := by
  unfold writeText at h
  split at h
  · rename_i parent name hdestination
    obtain ⟨entries, hdir, hnone⟩ := dir_of_free (destination_eq_ok hdestination).2
    refine ⟨_, parent, name, entries, hdestination, rfl, hdir, fun n hn => ?_, ?_⟩
    · rw [nodeAt_below hdir, hnone] at hn
      simp at hn
    · simpa using h.symm
  · rename_i names hdestination
    split at h
    · rename_i old name hold hlast
      obtain ⟨parent, rfl⟩ : ∃ parent, names = parent ++ [name] :=
        ⟨_, (List.dropLast_append_getLast? _ hlast).symm⟩
      obtain ⟨entries, hdir⟩ := dir_of_file hold
      refine ⟨_, parent, name, entries, hdestination, rfl, hdir, fun n hn => ?_, ?_⟩
      · rw [hold] at hn
        exact ⟨old, (Option.some.inj hn).symm⟩
      · simpa using h.symm
    · simp at h
  · simp at h

/-- At the path of a text that was written there is a file that holds it. -/
theorem node_writeText (h : d.writeText path content = .ok d') :
    d'.node path = .ok (.file (.text content)) := by
  obtain ⟨destination, parent, name, entries, hdestination, hnames, hdir, hplace, rfl⟩ :=
    writeText_eq_ok h
  have hfile : (d.put parent name (.file (.text content))).nodeAt destination.names =
      some (.file (.text content)) := by
    rw [hnames]
    exact Node.at?_put hdir _
  obtain ⟨left, hway⟩ := (keeps_put hplace).arrives (by simp)
    (fun _ _ hfree => ⟨_, by rwa [hfree] at hfile⟩) (destination_eq_ok hdestination).2
  have hlook : (d.put parent name (.file (.text content))).destination .look path =
      .ok (.existing destination.names) := by
    rw [destination_eq_follow hdestination]
    exact hway.follow_look
  rw [node, hlook]
  simp only [hfile]

end Disk

/-! ### Saved settings -/

/-- Saving ends with writing the document. -/
theorem Config.save_eq_ok {c : Config} {d d' : Disk} {path : Text} (h : c.save d path = .ok d') :
    ∃ made, d.makeParents path = .ok made ∧ made.writeText path c.write = .ok d' := by
  unfold Config.save at h
  cases hmade : d.makeParents path with
  | error e => simp [hmade, Except.bind] at h
  | ok made =>
    refine ⟨made, rfl, ?_⟩
    cases hwritten : made.writeText path c.write with
    | error e => simp [hmade, Except.bind, hwritten] at h
    | ok written => simpa [hmade, Except.bind, hwritten] using h

/-- The settings written as a document are those that the document is read as, wherever
    the home directory is, and settings that were saved are loaded from the same path. -/
theorem saved_settings_load (c : Config) :
    (∀ home, configOfText home c.write = .ok c) ∧
      ∀ (d d' : Disk) (path : Text), c.save d path = .ok d' →
        loadConfig d' (some path) = .ok c := by
  refine ⟨c.configOfText_write, fun d d' path h => ?_⟩
  obtain ⟨made, -, hwritten⟩ := Config.save_eq_ok h
  have hnode := Disk.node_writeText hwritten
  have hfile : d'.configFile path = .readable c.write := by
    have hhas : d'.has path = true := by simp [Disk.has, hnode, Except.toOption]
    have hread : d'.readText path = .ok c.write := by simp [Disk.readText, hnode]
    simp only [Disk.configFile, hhas, if_true, hread]
  rw [loadConfig, Option.getD_some, hfile]
  exact c.configOfText_write d'.home

/-- Settings with quotes, backslashes and control characters in their paths, saved behind
    a link in a directory that has to be made. -/
theorem saved_settings_load_behind_link :
    let history : HistorySettings :=
      ⟨18446744073709551615, "C:\\\"x\"\n'''\u0001\u007f\r".toList, false⟩
    let logging : LoggingSettings := ⟨.trace, some "it's \"\"\" \\".toList, false⟩
    let c : Config := ⟨history, logging, .default⟩
    let d : Disk := ⟨.dir [("h".toList, .dir [("link".toList, .link "/etc".toList)]),
      ("etc".toList, .dir [])], ["h".toList], none⟩
    ∃ d', c.save d "link/shell/config.toml".toList = .ok d' ∧
      d'.hasDir "/etc/shell".toList = true ∧
      loadConfig d' (some "link/shell/config.toml".toList) = .ok c := by
  intro history logging c d
  have hsaved : (c.save d "link/shell/config.toml".toList).toOption.any
      (fun d' => d'.hasDir "/etc/shell".toList) = true := by
    rw [Config.save]
    generalize c.write = t
    cbv
  cases hsave : c.save d "link/shell/config.toml".toList with
  | error e =>
    rw [hsave] at hsaved
    cases hsaved
  | ok d' =>
    rw [hsave] at hsaved
    exact ⟨d', rfl, hsaved, (saved_settings_load c).2 d d' _ hsave⟩

end GroovyShell
