/-
  GroovyShell/Session/NameMap.lean
  ================================
  **Names in order, each at most once.**

  The session keeps what it knows by name and lists it by name.  A map here is
  a list of entries whose names rise strictly, by code point; the proof of that
  travels with the list, so a name cannot be listed twice or out of order.  A
  set of names is a map without values.
-/
import GroovyShell.Text.Basic

namespace GroovyShell

variable {α : Type}

/-- Entries with names that rise strictly. -/
def Rising (entries : List (Text × α)) : Prop :=
  entries.Pairwise fun a b => a.1 < b.1

instance (entries : List (Text × α)) : Decidable (Rising entries) :=
  inferInstanceAs (Decidable (List.Pairwise _ _))

/-- Put a value under a name, in the place of any value it had. -/
def insertEntry (name : Text) (value : α) : List (Text × α) → List (Text × α)
  | [] => [(name, value)]
  | (other, kept) :: rest =>
    if name < other then (name, value) :: (other, kept) :: rest
    else if name = other then (name, value) :: rest
    else (other, kept) :: insertEntry name value rest

theorem mem_insertEntry {name : Text} {value : α} {entries : List (Text × α)} {e : Text × α}
    (h : e ∈ insertEntry name value entries) : e = (name, value) ∨ e ∈ entries := by
  induction entries with
  | nil => simpa [insertEntry] using h
  | cons first rest ih =>
    unfold insertEntry at h
    split at h
    · simpa using h
    · split at h
      · simp only [List.mem_cons] at h ⊢
        rcases h with h | h
        · exact .inl h
        · exact .inr (.inr h)
      · simp only [List.mem_cons] at h ⊢
        rcases h with h | h
        · exact .inr (.inl h)
        · rcases ih h with h | h
          · exact .inl h
          · exact .inr (.inr h)

theorem mem_map_insertEntry {name other : Text} {value : α} {entries : List (Text × α)} :
    other ∈ (insertEntry name value entries).map (·.1) ↔
      other = name ∨ other ∈ entries.map (·.1) := by
  induction entries with
  | nil => simp [insertEntry]
  | cons first rest ih =>
    unfold insertEntry
    split
    · simp
    · split
      · rename_i same
        simp [same]
      · rw [List.map_cons, List.mem_cons, ih, List.map_cons, List.mem_cons]
        exact or_left_comm

theorem find?_insertEntry (name other : Text) (value : α) (entries : List (Text × α)) :
    ((insertEntry name value entries).find? fun e => e.1 == other).map (·.2) =
      if name = other then some value else (entries.find? fun e => e.1 == other).map (·.2) := by
  induction entries with
  | nil => by_cases h : name = other <;> simp [insertEntry, h]
  | cons first rest ih =>
    obtain ⟨key, kept⟩ := first
    unfold insertEntry
    split
    · by_cases h : name = other <;> simp [h]
    · split
      · rename_i same
        subst same
        by_cases h : name = other <;> simp [h]
      · rename_i different
        by_cases h : key = other
        · have : name ≠ other := fun e => different (e.trans h.symm)
          simp [h, this]
        · simpa [List.find?_cons, h] using ih

/-- Of two different names one comes first. -/
theorem name_lt_of_not_lt {a b : Text} (h : ¬ a < b) (different : a ≠ b) : b < a := by
  rcases List.le_total a b with le | le
  · exact absurd (List.le_antisymm le (List.not_lt.mp h)) different
  · exact Classical.byContradiction fun ge =>
      different (List.le_antisymm (List.not_lt.mp ge) (List.not_lt.mp h))

theorem rising_insertEntry (name : Text) (value : α) {entries : List (Text × α)}
    (h : Rising entries) : Rising (insertEntry name value entries) := by
  induction entries with
  | nil => simp [insertEntry, Rising]
  | cons first rest ih =>
    obtain ⟨other, kept⟩ := first
    simp only [Rising, List.pairwise_cons] at h ih
    unfold insertEntry
    split
    · rename_i less
      simp only [Rising, List.pairwise_cons, List.mem_cons]
      refine ⟨?_, h⟩
      rintro e (rfl | he)
      · exact less
      · exact List.lt_trans less (h.1 e he)
    · split
      · rename_i same
        subst same
        simpa only [Rising, List.pairwise_cons] using h
      · rename_i notLess notSame
        simp only [Rising, List.pairwise_cons]
        refine ⟨fun e he => ?_, ih h.2⟩
        rcases mem_insertEntry he with rfl | he
        · exact name_lt_of_not_lt notLess notSame
        · exact h.1 e he

/-- Values by name. -/
structure NameMap (α : Type) where
  entries : List (Text × α)
  rising : Rising entries
deriving DecidableEq

namespace NameMap

def empty : NameMap α := ⟨[], by simp [Rising]⟩

def insert (m : NameMap α) (name : Text) (value : α) : NameMap α :=
  ⟨insertEntry name value m.entries, rising_insertEntry name value m.rising⟩

def find? (m : NameMap α) (name : Text) : Option α :=
  (m.entries.find? fun e => e.1 == name).map (·.2)

def contains (m : NameMap α) (name : Text) : Bool :=
  m.entries.any fun e => e.1 == name

def names (m : NameMap α) : List Text := m.entries.map (·.1)

theorem find?_insert (m : NameMap α) (name other : Text) (value : α) :
    (m.insert name value).find? other = if name = other then some value else m.find? other :=
  find?_insertEntry name other value m.entries

theorem mem_names_insert {m : NameMap α} {name other : Text} {value : α} :
    other ∈ (m.insert name value).names ↔ other = name ∨ other ∈ m.names :=
  mem_map_insertEntry

theorem contains_iff {m : NameMap α} {name : Text} : m.contains name = true ↔ name ∈ m.names := by
  simp [contains, names, List.any_eq_true]

/-- The names rise strictly, so each is listed once. -/
theorem names_rising (m : NameMap α) : m.names.Pairwise (· < ·) :=
  List.pairwise_map.mpr m.rising

end NameMap

abbrev NameSet := NameMap Unit

def NameSet.add (s : NameSet) (name : Text) : NameSet := s.insert name ()

def NameSet.addAll (s : NameSet) (names : List Text) : NameSet := names.foldl NameSet.add s

def NameSet.ofList (names : List Text) : NameSet := NameSet.addAll NameMap.empty names

theorem NameSet.mem_addAll {s : NameSet} {names : List Text} {name : Text} :
    name ∈ (s.addAll names).names ↔ name ∈ names ∨ name ∈ s.names := by
  induction names generalizing s with
  | nil => simp [NameSet.addAll]
  | cons first rest ih =>
    have step : s.addAll (first :: rest) = (s.add first).addAll rest := rfl
    rw [step, ih, NameSet.add, NameMap.mem_names_insert, List.mem_cons, or_left_comm, or_assoc]

/-- A set of names has exactly those names. -/
theorem NameSet.mem_ofList {names : List Text} {name : Text} :
    name ∈ (NameSet.ofList names).names ↔ name ∈ names := by
  rw [NameSet.ofList, NameSet.mem_addAll]
  simp [NameMap.empty, NameMap.names]

end GroovyShell
