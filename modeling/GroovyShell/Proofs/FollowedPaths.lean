/-
  GroovyShell/Proofs/FollowedPaths.lean
  =====================================
  **The way a path goes.**

  A path goes from directory to directory, and links may stand anywhere on the way.
  So the way is a relation of its own (`Disk.Arrives`): it does not depend on what comes
  behind it, except that a link at the end of a path is followed only where more comes
  behind, and it stays where the tree only grows (`Disk.Keeps`).
-/
import GroovyShell.Files.Disk

namespace GroovyShell

/-! ### Trees -/

/-- A name that leads from a directory to one of its entries. -/
structure IsName (name : Text) : Prop where
  nonempty : name ≠ []
  notHere : name ≠ ['.']
  notAbove : name ≠ ['.', '.']
  short : name.string.utf8ByteSize ≤ 255

instance (name : Text) : Decidable (IsName name) :=
  decidable_of_iff
    (name ≠ [] ∧ name ≠ ['.'] ∧ name ≠ ['.', '.'] ∧ name.string.utf8ByteSize ≤ 255)
    ⟨fun ⟨nonempty, notHere, notAbove, short⟩ => ⟨nonempty, notHere, notAbove, short⟩,
      fun ⟨nonempty, notHere, notAbove, short⟩ => ⟨nonempty, notHere, notAbove, short⟩⟩

theorem Node.at?_append (above below : List Text) (n : Node) :
    n.at? (above ++ below) = (n.at? above).bind (Node.at? below) := by
  induction above generalizing n with
  | nil => rfl
  | cons name rest ih =>
    cases n with
    | dir entries =>
      simp only [List.cons_append, Node.at?, Option.bind_assoc]
      exact congrArg _ (funext ih)
    | file | link => rfl

namespace Node

/-- What a path goes through in the same way. -/
inductive Alike : Node → Node → Prop
  | file (before after : FileContent) : Alike (.file before) (.file after)
  | link (target : Text) : Alike (.link target) (.link target)
  | dir (before after : List (Text × Node)) : Alike (.dir before) (.dir after)

theorem Alike.refl (n : Node) : n.Alike n := by
  cases n with
  | file content => exact .file content content
  | link target => exact .link target
  | dir entries => exact .dir entries entries

end Node

/-- The names a path leads to, whether something is there or not. -/
def Destination.names : Destination → List Text
  | .existing names => names
  | .free parent name => parent ++ [name]

namespace Disk

variable {d d' : Disk} {use : PathUse} {links left : Nat} {here there : List Text} {part : Text}
  {rest parts : List Text} {entries : List (Text × Node)} {destination : Destination}

theorem nodeAt_below (hdir : d.nodeAt here = some (.dir entries)) (name : Text) :
    d.nodeAt (here ++ [name]) = entries.lookup name := by
  rw [nodeAt, Node.at?_append, show d.root.at? here = _ from hdir]
  simp only [Option.bind_some, Node.at?]
  cases entries.lookup name <;> rfl

/-- `d.Keeps d'`: everything in the first tree is in the second, where a file may hold
    something else and a directory may hold more. -/
def Keeps (d d' : Disk) : Prop :=
  ∀ names n, d.nodeAt names = some n → ∃ n', d'.nodeAt names = some n' ∧ n.Alike n'

theorem Keeps.refl (d : Disk) : d.Keeps d := fun _ n hn => ⟨n, hn, .refl n⟩

theorem Keeps.dir (h : d.Keeps d') {entries : List (Text × Node)}
    (hdir : d.nodeAt here = some (.dir entries)) :
    ∃ entries', d'.nodeAt here = some (.dir entries') ∧
      ∀ part n, entries.lookup part = some n →
        ∃ n', entries'.lookup part = some n' ∧ n.Alike n' := by
  obtain ⟨n, hn, halike⟩ := h here _ hdir
  cases halike with
  | dir before after =>
    refine ⟨after, hn, fun part n hentry => ?_⟩
    rw [← nodeAt_below hdir part] at hentry
    rw [← nodeAt_below hn part]
    exact h _ n hentry

/-! ### The way a path goes -/

/-- `d.Arrives links here parts left there`: the parts, taken from `here`, lead to
    `there`, every link on the way being followed; of the links that may be followed,
    `left` are left. -/
inductive Arrives (d : Disk) : Nat → List Text → List Text → Nat → List Text → Prop
  | done {links : Nat} {here : List Text} : Arrives d links here [] links here
  | stay {links left : Nat} {here there rest : List Text} {part : Text}
      {entries : List (Text × Node)} (hdir : d.nodeAt here = some (.dir entries))
      (hpart : part = [] ∨ part = ['.']) (hrest : Arrives d links here rest left there) :
      Arrives d links here (part :: rest) left there
  | above {links left : Nat} {here there rest : List Text}
      {entries : List (Text × Node)} (hdir : d.nodeAt here = some (.dir entries))
      (hrest : Arrives d links here.dropLast rest left there) :
      Arrives d links here (['.', '.'] :: rest) left there
  | link {links left : Nat} {here there rest : List Text} {part target : Text}
      {entries : List (Text × Node)} (hdir : d.nodeAt here = some (.dir entries))
      (hpart : IsName part) (hlink : entries.lookup part = some (.link target))
      (hrest : Arrives d links (if isAbsolute target then [] else here)
        (target.parts '/' ++ rest) left there) :
      Arrives d (links + 1) here (part :: rest) left there
  | into {links left : Nat} {here there rest : List Text} {part : Text} {n : Node}
      {entries : List (Text × Node)} (hdir : d.nodeAt here = some (.dir entries))
      (hpart : IsName part) (hentry : entries.lookup part = some n)
      (hn : ∀ target, n ≠ .link target) (hrest : Arrives d links (here ++ [part]) rest left there) :
      Arrives d links here (part :: rest) left there

/-- What one name leads to, where nothing is opened for writing. -/
theorem follow_name (hdir : d.nodeAt here = some (.dir entries)) (hpart : IsName part)
    (huse : use ≠ .write) :
    d.follow use links here (part :: rest) =
      match entries.lookup part with
      | none => if rest.isEmpty then .ok (.free here part) else .error .notFound
      | some (.link target) =>
        if rest.isEmpty ∧ use = .place then .ok (.existing (here ++ [part]))
        else
          match links with
          | 0 => .error .tooManyLinks
          | links + 1 =>
            d.follow use links (if isAbsolute target then [] else here) (target.parts '/' ++ rest)
      | some _ => d.follow use links (here ++ [part]) rest := by
  have hplain : ¬ (part.isEmpty ∨ part = ['.']) := by
    simpa using ⟨hpart.nonempty, hpart.notHere⟩
  have hshort : ¬ part.string.utf8ByteSize > 255 := Nat.not_lt.mpr hpart.short
  have hfollow := follow.eq_def d use links here (part :: rest)
  simp only [hdir, if_neg hplain, if_neg hpart.notAbove, huse, false_and, if_false,
    if_neg hshort] at hfollow
  exact hfollow

theorem follow_stay (hdir : d.nodeAt here = some (.dir entries))
    (hpart : part = [] ∨ part = ['.']) :
    d.follow use links here (part :: rest) = d.follow use links here rest := by
  have hplain : part.isEmpty ∨ part = ['.'] := by simpa using hpart
  rw [follow.eq_def]
  simp only [hdir, if_pos hplain]

theorem follow_above (hdir : d.nodeAt here = some (.dir entries)) :
    d.follow use links here (['.', '.'] :: rest) = d.follow use links here.dropLast rest := by
  rw [follow.eq_def]
  simp [hdir]

/-- Where a path led in the first tree it arrives in the second, if a file has been put
    where it led to nothing. -/
theorem Keeps.arrives (hkeeps : d.Keeps d') (huse : use ≠ .place)
    (hnew : ∀ parent name, destination = .free parent name →
      ∃ file, d'.nodeAt (parent ++ [name]) = some (.file file))
    (h : d.follow use links here parts = .ok destination) :
    ∃ left, d'.Arrives links here parts left destination.names := by
  fun_induction d.follow use links here parts with
  | case1 links here =>
    obtain rfl : .existing here = destination := by simpa using h
    exact ⟨links, .done⟩
  | case2 links here part rest entries hdir hpart ih =>
    obtain ⟨entries', hdir', -⟩ := hkeeps.dir hdir
    obtain ⟨left, hrest⟩ := ih h
    exact ⟨left, .stay hdir' (by simpa using hpart) hrest⟩
  | case3 links here rest entries hdir hplain ih =>
    obtain ⟨entries', hdir', -⟩ := hkeeps.dir hdir
    obtain ⟨left, hrest⟩ := ih h
    exact ⟨left, .above hdir' hrest⟩
  | case6 links here part rest entries hdir hplain habove hslashes hshort hnone hend =>
    simp only [List.isEmpty_iff, not_or] at hplain hend
    subst hend
    obtain rfl : .free here part = destination := by simpa using h
    obtain ⟨entries', hdir', -⟩ := hkeeps.dir hdir
    obtain ⟨file, hfile⟩ := hnew here part rfl
    rw [nodeAt_below hdir' part] at hfile
    exact ⟨links, .into hdir' ⟨hplain.1, hplain.2, habove, Nat.not_lt.mp hshort⟩ hfile
      (by simp) .done⟩
  | case10 here part rest entries hdir hplain habove hslashes hshort target hlink hend links ih =>
    simp only [List.isEmpty_iff, not_or] at hplain
    obtain ⟨entries', hdir', hentries⟩ := hkeeps.dir hdir
    obtain ⟨n, hentry, halike⟩ := hentries part _ hlink
    cases halike
    obtain ⟨left, hrest⟩ := ih (by simpa using h)
    exact ⟨left, .link hdir' ⟨hplain.1, hplain.2, habove, Nat.not_lt.mp hshort⟩ hentry
      (by simpa using hrest)⟩
  | case11 links here part rest entries hdir hplain habove hslashes hshort n hn hentry ih =>
    simp only [List.isEmpty_iff, not_or] at hplain
    obtain ⟨entries', hdir', hentries⟩ := hkeeps.dir hdir
    obtain ⟨n', hentry', halike⟩ := hentries part _ hentry
    have hn' : ∀ target, n' ≠ .link target := by
      rintro target rfl
      cases halike
      exact hn target rfl
    obtain ⟨left, hrest⟩ := ih h
    exact ⟨left, .into hdir' ⟨hplain.1, hplain.2, habove, Nat.not_lt.mp hshort⟩ hentry' hn' hrest⟩
  | case8 _ _ _ _ _ _ _ _ _ _ _ _ hend => exact absurd hend.2 huse
  | case4 | case5 | case7 | case9 | case12 => simp at h

/-- Where a path leads when it is looked at, its parts arrive. -/
theorem arrives_of_follow (h : d.follow .look links here parts = .ok (.existing there)) :
    ∃ left, d.Arrives links here parts left there :=
  (Keeps.refl d).arrives (by simp) (by simp) h

/-- What comes behind the way is followed from where it arrives.  Where nothing comes
    behind it, a link at its end must not be put in the place of. -/
theorem Arrives.follow_append (h : d.Arrives links here parts left there) (huse : use ≠ .write)
    {tail : List Text} (htail : tail ≠ [] ∨ use ≠ .place) :
    d.follow use links here (parts ++ tail) = d.follow use left there tail := by
  have hgoes (rest : List Text) : ¬ ((rest ++ tail).isEmpty ∧ use = .place) := by
    rcases htail with htail | hplace
    · simp [htail]
    · simp [hplace]
  induction h with
  | done => rfl
  | stay hdir hpart hrest ih => rw [List.cons_append, follow_stay hdir hpart, ih]
  | above hdir hrest ih => rw [List.cons_append, follow_above hdir, ih]
  | link hdir hpart hlink hrest ih =>
    rw [List.append_assoc] at ih
    rw [List.cons_append, follow_name hdir hpart huse, hlink]
    simpa only [if_neg (hgoes _)] using ih
  | @into _ _ _ _ _ _ n _ hdir hpart hentry hn hrest ih =>
    rw [List.cons_append, follow_name hdir hpart huse, hentry]
    cases n with
    | link target => exact absurd rfl (hn target)
    | file | dir => exact ih

/-- The way a path goes is the way it is followed when it is looked at. -/
theorem Arrives.follow_look (h : d.Arrives links here parts left there) :
    d.follow .look links here parts = .ok (.existing there) := by
  have hway : d.follow .look links here (parts ++ []) = d.follow .look left there [] :=
    h.follow_append (by simp) (.inr (by simp))
  rwa [List.append_nil, follow] at hway

/-- A last slash leads nowhere else. -/
theorem Arrives.dropSlash (h : d.Arrives links here (parts ++ [[]]) left there) :
    d.Arrives links here parts left there := by
  generalize hwhole : parts ++ [[]] = whole at h
  induction h generalizing parts with
  | done => simp at hwhole
  | stay hdir hpart hrest ih =>
    rcases parts with _ | ⟨part, parts⟩ <;> cases hwhole
    · cases hrest
      exact .done
    · exact .stay hdir hpart (ih rfl)
  | above hdir hrest ih =>
    rcases parts with _ | ⟨part, parts⟩ <;> cases hwhole
    exact .above hdir (ih rfl)
  | link hdir hpart hlink hrest ih =>
    rcases parts with _ | ⟨part, parts⟩ <;> cases hwhole
    · exact absurd rfl hpart.nonempty
    · exact .link hdir hpart hlink (ih (List.append_assoc ..))
  | into hdir hpart hentry hn hrest ih =>
    rcases parts with _ | ⟨part, parts⟩ <;> cases hwhole
    · exact absurd rfl hpart.nonempty
    · exact .into hdir hpart hentry hn (ih rfl)

/-! ### Where a path begins -/

/-- The directory that a path is taken from. -/
def start (d : Disk) (path : Text) : List Text :=
  if isAbsolute path then [] else d.workingDirectory

/-- A path that leads somewhere is not refused anywhere. -/
theorem destination_eq_follow {path : Text} (h : d.destination use path = .ok destination)
    (d' : Disk) (other : PathUse) :
    d'.destination other path = d'.follow other 40 (d'.start path) (path.parts '/') := by
  unfold Disk.destination at h
  split at h
  · simp at h
  · rename_i hnul
    split at h
    · simp at h
    · rename_i hsome
      split at h
      · simp at h
      · rename_i hshort
        rw [Disk.destination, if_neg hnul, if_neg hsome, if_neg hshort]
        rfl

theorem destination_eq_ok {path : Text} (h : d.destination use path = .ok destination) :
    path ≠ [] ∧ d.follow use 40 (d.start path) (path.parts '/') = .ok destination := by
  constructor
  · rintro rfl
    simp [Disk.destination] at h
  · rw [← destination_eq_follow h, h]

theorem node_eq_ok {path : Text} {n : Node} (h : d.node path = .ok n) :
    ∃ names, d.destination .look path = .ok (.existing names) ∧ d.nodeAt names = some n := by
  unfold node at h
  split at h
  · rename_i names hnames
    split at h
    · rename_i found hfound
      obtain rfl : found = n := by simpa using h
      exact ⟨names, hnames, hfound⟩
    · simp at h
  · simp at h
  · simp at h

end Disk

end GroovyShell
