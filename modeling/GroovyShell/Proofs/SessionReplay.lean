/-
  GroovyShell/Proofs/SessionReplay.lean
  =====================================
  **The session is the replay of what was recorded.**

  Of all the lines of a run three sorts bear on the names of the session: those
  that finish a statement, imports by command and purges.  Replaying these from
  the beginning gives the session of the run.  A session is known when its names
  of each kind and the types of its variables are (`Session.ext_names`), and for
  these a fold of declarations has a closed form.  From it follow what a replay
  lists, the types it knows, and that a statement recorded again adds nothing.
-/
import GroovyShell.Proofs.StatementLines
import Mathlib.Data.List.Sort

namespace GroovyShell

/-! ### Maps that find the same -/

namespace NameMap

variable {α : Type}

theorem mem_entries_iff {m : NameMap α} {name : Text} {value : α} :
    (name, value) ∈ m.entries ↔ m.find? name = some value := by
  obtain ⟨entries, rising⟩ := m
  unfold find?
  induction entries with
  | nil => simp
  | cons first rest ih =>
    obtain ⟨key, kept⟩ := first
    have hrest := ih (List.Pairwise.of_cons rising)
    by_cases hkey : key = name
    · subst hkey
      have hlater : (key, value) ∉ rest := fun hmem =>
        List.lt_irrefl key (List.rel_of_pairwise_cons rising hmem)
      simp [hlater, eq_comm]
    · have hother : name ≠ key := fun e => hkey e.symm
      simpa [hkey, hother] using hrest

theorem ext_find? {m n : NameMap α} (h : ∀ name, m.find? name = n.find? name) : m = n := by
  have hirrefl : Std.Irrefl fun a b : Text × α => a.1 < b.1 := ⟨fun a => List.lt_irrefl a.1⟩
  have hasymm : Std.Antisymm fun a b : Text × α => a.1 < b.1 :=
    ⟨fun a b hab hba => absurd (List.lt_trans hab hba) (List.lt_irrefl a.1)⟩
  have hentries : m.entries = n.entries := by
    apply List.Pairwise.eq_of_mem_iff m.rising n.rising
    intro ⟨name, value⟩
    rw [mem_entries_iff, mem_entries_iff, h]
  cases m
  cases n
  simpa using hentries

theorem find?_eq_none_iff {m : NameMap α} {name : Text} :
    m.find? name = none ↔ name ∉ m.names := by
  simp only [find?, names, Option.map_eq_none_iff, List.find?_eq_none, List.mem_map, beq_iff_eq,
    not_exists, not_and]

end NameMap

theorem NameSet.ext_names {a b : NameSet} (h : ∀ name, name ∈ a.names ↔ name ∈ b.names) :
    a = b := by
  apply NameMap.ext_find?
  intro name
  by_cases hmem : name ∈ a.names
  · obtain ⟨u, hu⟩ := Option.ne_none_iff_exists'.mp fun e => NameMap.find?_eq_none_iff.mp e hmem
    obtain ⟨w, hw⟩ := Option.ne_none_iff_exists'.mp fun e =>
      NameMap.find?_eq_none_iff.mp e ((h name).mp hmem)
    rw [hu, hw]
  · rw [NameMap.find?_eq_none_iff.mpr hmem,
      NameMap.find?_eq_none_iff.mpr fun e => hmem ((h name).mpr e)]

/-! ### A session by its names and types -/

/-- What the session keeps names of. -/
inductive NameKind where
  | imports
  | bindings
  | methods
  | classes
deriving DecidableEq

def NameKind.target : NameKind → Target
  | .imports => .imports
  | .bindings => .bindings
  | .methods => .methods
  | .classes => .classes

namespace Declaration

def introduces : Declaration → NameKind × Text
  | .importing clause => (.imports, clause)
  | .binding name _ => (.bindings, name)
  | .method name => (.methods, name)
  | .type name => (.classes, name)

/-- The type a declaration gives to a variable, if it declares that one with a type. -/
def typeFor (name : Text) : Declaration → Option Text
  | .binding other declared => if other = name then declared else none
  | _ => none

end Declaration

/-- The type of the last declaration of a variable that had one. -/
def lastType (name : Text) (ds : List Declaration) : Option Text :=
  (ds.filterMap (·.typeFor name)).getLast?

theorem lastType_append (name : Text) (ds es : List Declaration) :
    lastType name (ds ++ es) = (lastType name es).or (lastType name ds) := by
  rw [lastType, List.filterMap_append, List.getLast?_append, lastType, lastType]

theorem lastType_single (name : Text) (d : Declaration) : lastType name [d] = d.typeFor name := by
  cases h : d.typeFor name <;> simp [lastType, h]

namespace Session

def names (s : Session) : NameKind → List Text
  | .imports => s.imports.names
  | .bindings => s.bindings.names
  | .methods => s.methods.names
  | .classes => s.classes.names

@[simp] theorem names_clearBuffer (s : Session) (kind : NameKind) :
    s.clearBuffer.names kind = s.names kind := by
  cases kind <;> rfl

theorem ext_names {s t : Session} (hbuffer : s.buffer = t.buffer)
    (hnames : ∀ kind name, name ∈ s.names kind ↔ name ∈ t.names kind)
    (htypes : ∀ name, s.variableType name = t.variableType name) : s = t := by
  have hbindings : s.bindings = t.bindings := by
    apply NameMap.ext_find?
    intro name
    have hmem := hnames .bindings name
    have htype := htypes name
    simp only [names, variableType] at hmem htype
    cases hs : s.bindings.find? name with
    | none =>
      rw [NameMap.find?_eq_none_iff.mpr]
      intro hin
      exact NameMap.find?_eq_none_iff.mp hs (hmem.mpr hin)
    | some type =>
      cases ht : t.bindings.find? name with
      | none =>
        have hin : name ∈ s.bindings.names := by
          by_contra hout
          rw [NameMap.find?_eq_none_iff.mpr hout] at hs
          simp at hs
        exact absurd (hmem.mp hin) (NameMap.find?_eq_none_iff.mp ht)
      | some other => simpa [hs, ht] using htype
  cases s
  cases t
  simp only [Session.mk.injEq]
  exact ⟨hbuffer, NameSet.ext_names (hnames .imports), hbindings,
    NameSet.ext_names (hnames .methods), NameSet.ext_names (hnames .classes)⟩

/-! ### Declaring -/

theorem mem_names_declare {s : Session} {d : Declaration} {kind : NameKind} {name : Text} :
    name ∈ (s.declare d).names kind ↔ d.introduces = (kind, name) ∨ name ∈ s.names kind := by
  rcases d with clause | ⟨other, _ | type⟩ | other | other
  case importing =>
    cases kind <;> simp [declare, names, Declaration.introduces, NameSet.add,
      NameMap.mem_names_insert, eq_comm]
  case binding.some =>
    cases kind <;> simp [declare, names, Declaration.introduces, NameMap.mem_names_insert, eq_comm]
  case binding.none =>
    unfold declare
    dsimp only
    split
    · rename_i hknown
      rw [NameMap.contains_iff] at hknown
      constructor
      · exact .inr
      · rintro (hnew | hold)
        · simp only [Declaration.introduces, Prod.mk.injEq] at hnew
          obtain ⟨rfl, rfl⟩ := hnew
          exact hknown
        · exact hold
    · cases kind <;> simp [names, Declaration.introduces, NameMap.mem_names_insert, eq_comm]
  case method =>
    cases kind <;> simp [declare, names, Declaration.introduces, NameSet.add,
      NameMap.mem_names_insert, eq_comm]
  case type =>
    cases kind <;> simp [declare, names, Declaration.introduces, NameSet.add,
      NameMap.mem_names_insert, eq_comm]

/-- A declaration without a type leaves the types as they are, also that of the
    variable it declares. -/
theorem variableType_declare (s : Session) (d : Declaration) (name : Text) :
    (s.declare d).variableType name = (d.typeFor name).or (s.variableType name) := by
  rcases d with clause | ⟨other, _ | type⟩ | other | other
  case binding.some =>
    by_cases h : other = name <;>
      simp [declare, variableType, Declaration.typeFor, NameMap.find?_insert, h]
  case binding.none =>
    unfold declare
    dsimp only
    split
    · simp [Declaration.typeFor]
    · rename_i hnew
      simp only [variableType, NameMap.find?_insert, Declaration.typeFor, ite_self, Option.none_or]
      split
      · rename_i hsame
        subst hsame
        rw [NameMap.contains_iff] at hnew
        rw [NameMap.find?_eq_none_iff.mpr hnew]
        rfl
      · rfl
  all_goals rfl

theorem mem_names_declareAll {s : Session} {ds : List Declaration} {kind : NameKind} {name : Text} :
    name ∈ (ds.foldl declare s).names kind ↔
      (∃ d ∈ ds, d.introduces = (kind, name)) ∨ name ∈ s.names kind := by
  induction ds generalizing s with
  | nil => simp
  | cons d ds ih =>
    rw [List.foldl_cons, ih, mem_names_declare, List.exists_mem_cons_iff, or_assoc]
    exact or_left_comm

theorem variableType_declareAll (s : Session) (ds : List Declaration) (name : Text) :
    (ds.foldl declare s).variableType name = (lastType name ds).or (s.variableType name) := by
  induction ds generalizing s with
  | nil => rfl
  | cons d ds ih =>
    rw [List.foldl_cons, ih, variableType_declare, ← List.singleton_append, lastType_append,
      lastType_single, Option.or_assoc]

theorem buffer_record (s : Session) (statement : Text) :
    (s.record statement).buffer = s.buffer := by
  have h : s.record statement = { s.record statement with buffer := s.buffer } :=
    record_buffer s s.buffer statement
  rw [h]

theorem record_record (s : Session) (statement : Text) :
    (s.record statement).record statement = s.record statement := by
  apply ext_names
  · exact buffer_record _ statement
  · intro kind name
    rw [record, mem_names_declareAll, record, mem_names_declareAll, ← or_assoc, or_self]
  · intro name
    rw [record, variableType_declareAll, record, variableType_declareAll, ← Option.or_assoc,
      Option.or_self]

/-! ### Forgetting -/

theorem names_purge (s : Session) (target : Target) (kind : NameKind) :
    (s.purge target).names kind =
      if target = kind.target ∨ target = .all then [] else s.names kind := by
  cases target <;> cases kind <;> rfl

theorem variableType_purge (s : Session) (target : Target) (name : Text) :
    (s.purge target).variableType name =
      if target = .bindings ∨ target = .all then none else s.variableType name := by
  cases target <;> rfl

end Session

/-! ### Events -/

/-- What bears on the names of the session. -/
inductive SessionEvent where
  | recorded (statement : Text)
  | imported (clause : Text)
  | purged (target : Target)
deriving DecidableEq

namespace SessionEvent

def declared : SessionEvent → List Declaration
  | .recorded statement => declarations statement
  | .imported clause => [.importing clause.trim]
  | .purged _ => []

def forgets (kind : NameKind) : SessionEvent → Bool
  | .purged target => decide (target = kind.target ∨ target = .all)
  | _ => false

end SessionEvent

namespace Session

def apply (s : Session) : SessionEvent → Session
  | .recorded statement => s.record statement
  | .imported clause => s.addImport clause
  | .purged target => s.purge target

theorem clearBuffer_apply (s : Session) (e : SessionEvent) :
    (s.apply e).clearBuffer = s.clearBuffer.apply e := by
  cases e with
  | recorded statement => exact (record_buffer s [] statement).symm
  | imported clause => rfl
  | purged target => cases target <;> rfl

theorem mem_names_apply {s : Session} {e : SessionEvent} {kind : NameKind} {name : Text} :
    name ∈ (s.apply e).names kind ↔
      e.forgets kind = false ∧
        ((∃ d ∈ e.declared, d.introduces = (kind, name)) ∨ name ∈ s.names kind) := by
  cases e with
  | recorded statement =>
    rw [apply, record, mem_names_declareAll]
    exact (and_iff_right rfl).symm
  | imported clause =>
    have hdeclared : s.addImport clause =
        (SessionEvent.imported clause).declared.foldl declare s := rfl
    rw [apply, hdeclared, mem_names_declareAll]
    exact (and_iff_right rfl).symm
  | purged target =>
    rw [apply, names_purge]
    by_cases h : target = kind.target ∨ target = .all
    · simp [h, SessionEvent.forgets]
    · simp [h, SessionEvent.forgets, SessionEvent.declared]

theorem variableType_apply (s : Session) (e : SessionEvent) (name : Text) :
    (s.apply e).variableType name =
      if e.forgets .bindings then none
      else (lastType name e.declared).or (s.variableType name) := by
  cases e with
  | recorded statement => exact variableType_declareAll s (declarations statement) name
  | imported clause => exact variableType_declareAll s [.importing clause.trim] name
  | purged target =>
    rw [apply, variableType_purge]
    by_cases h : target = .bindings ∨ target = .all
    · simp [h, SessionEvent.forgets, NameKind.target]
    · simp [h, SessionEvent.forgets, NameKind.target, SessionEvent.declared, lastType]

/-- The session that some events make of a new one. -/
def replay (events : List SessionEvent) : Session := events.foldl apply .new

theorem replay_concat (events : List SessionEvent) (e : SessionEvent) :
    replay (events ++ [e]) = (replay events).apply e := by
  rw [replay, List.foldl_concat, replay]

end Session

/-- What was declared since names of a kind were last forgotten. -/
def declaredSince (kind : NameKind) (events : List SessionEvent) : List Declaration :=
  (events.reverse.takeWhile fun e => !e.forgets kind).reverse.flatMap SessionEvent.declared

theorem declaredSince_concat (kind : NameKind) (events : List SessionEvent) (e : SessionEvent) :
    declaredSince kind (events ++ [e]) =
      if e.forgets kind then [] else declaredSince kind events ++ e.declared := by
  by_cases h : e.forgets kind = true
  · simp [declaredSince, h]
  · simp [declaredSince, h]

namespace Session

theorem mem_names_replay {events : List SessionEvent} {kind : NameKind} {name : Text} :
    name ∈ (replay events).names kind ↔
      ∃ d ∈ declaredSince kind events, d.introduces = (kind, name) := by
  induction events using List.reverseRecOn with
  | nil => cases kind <;> simp [replay, new, names, NameMap.names, NameMap.empty, declaredSince]
  | append_singleton events e ih =>
    rw [replay_concat, mem_names_apply, ih, declaredSince_concat]
    by_cases h : e.forgets kind = true
    · simp [h]
    · simp only [h, Bool.false_eq_true, if_false, List.mem_append, or_and_right, exists_or,
        true_and]
      exact or_comm

theorem variableType_replay (events : List SessionEvent) (name : Text) :
    (replay events).variableType name = lastType name (declaredSince .bindings events) := by
  induction events using List.reverseRecOn with
  | nil => rfl
  | append_singleton events e ih =>
    rw [replay_concat, variableType_apply, ih, declaredSince_concat]
    by_cases h : e.forgets .bindings = true
    · rw [if_pos h, if_pos h]
      rfl
    · rw [if_neg h, if_neg h, lastType_append]

end Session

/-! ### Runs -/

/-- What an exchange means for the names of the session: nothing, unless it
    finished a statement or was an import or a purge by command. -/
def Exchange.event (e : Exchange) : Option SessionEvent :=
  match e.role, e.result with
  | .groovy, .ok (.recorded statement) => some (.recorded statement)
  | .command (.ok (.addImport clause)), .ok _ => some (.imported clause)
  | .command (.ok (.purge target)), .ok _ => some (.purged target)
  | _, _ => none

namespace Repl

theorem process_event (r : Repl) (line : Text) :
    (r.process line).1.session.clearBuffer =
      (r.exchange line).event.elim r.session.clearBuffer r.session.clearBuffer.apply := by
  rcases hrole : r.role line with _ | reading | _
  case ignored => rw [exchange, hrole, process_ignored hrole]; rfl
  case command =>
    rw [exchange, hrole, process_command hrole]
    rcases reading with e | command
    case error => rfl
    case ok =>
      cases command with
      | purge target => exact Session.clearBuffer_apply r.session (.purged target)
      | addImport clause => exact Session.clearBuffer_apply r.session (.imported clause)
      | _ => rfl
  case groovy =>
    cases hstatement : completeness (r.session.statementWith line) with
    | complete =>
      rw [exchange, hrole, process_complete hrole hstatement]
      exact Session.clearBuffer_apply r.session (.recorded (r.session.statementWith line))
    | incomplete =>
      rw [exchange, hrole, process_incomplete hrole hstatement]
      rfl

theorem after_replay (completion : CompletionSettings) (color : Bool) (inputs : List Text) :
    ((opened completion color).after inputs).session.clearBuffer =
      .replay (((opened completion color).trace inputs).filterMap Exchange.event) := by
  induction inputs using List.reverseRecOn with
  | nil => rfl
  | append_singleton inputs line ih =>
    rw [after_concat, trace_concat, process_event, ih, List.filterMap_append]
    cases h : ((opened completion color).after inputs |>.exchange line).event with
    | none => simp [h]
    | some e => simp [h, Session.replay_concat]

/-- A name is gone after a line only if the line purged names of its kind. -/
theorem purged_of_not_mem {r : Repl} {line name : Text} {kind : NameKind}
    (hbefore : name ∈ r.session.names kind)
    (hgone : name ∉ (r.process line).1.session.names kind) :
    ∃ target, r.role line = .command (.ok (.purge target)) ∧
      (target = kind.target ∨ target = .all) := by
  have hstep := congrArg (name ∈ ·.names kind) (process_event r line)
  simp only [eq_iff_iff] at hstep
  rw [Session.names_clearBuffer] at hstep
  cases hevent : (r.exchange line).event with
  | none =>
    rw [hevent, Option.elim_none, Session.names_clearBuffer] at hstep
    exact absurd (hstep.mpr hbefore) hgone
  | some e =>
    rw [hevent, Option.elim_some, Session.mem_names_apply, Session.names_clearBuffer] at hstep
    have hforgets : e.forgets kind = true := by
      by_contra hnot
      exact hgone (hstep.mpr ⟨by simpa using hnot, .inr hbefore⟩)
    unfold Exchange.event at hevent
    split at hevent
    case h_3 target _ hrole _ =>
      cases hevent
      exact ⟨target, hrole, by simpa [SessionEvent.forgets] using hforgets⟩
    all_goals
      cases hevent
      try simp [SessionEvent.forgets] at hforgets

end Repl

/-- `ReplaysEvents history r`: after `history` the shell `r` knows what the events
    of the history declare, and no more. -/
structure ReplaysEvents (history : List Exchange) (r : Repl) : Prop where
  /-- The lines being typed apart, the session is that of the events. -/
  replayed : r.session.clearBuffer = .replay (history.filterMap Exchange.event)
  /-- A name is listed if it was declared since its kind was last purged. -/
  listed : ∀ kind name, name ∈ r.session.names kind ↔
    ∃ d ∈ declaredSince kind (history.filterMap Exchange.event), d.introduces = (kind, name)
  /-- A variable has the type last declared since variables were last purged. -/
  typed : ∀ name, r.session.variableType name =
    lastType name (declaredSince .bindings (history.filterMap Exchange.event))
  /-- Any other line changes at most the lines being typed. -/
  undisturbed : ∀ line, (r.exchange line).event = none →
    (r.process line).1.session.clearBuffer = r.session.clearBuffer
  /-- Only purging makes a name disappear. -/
  forgotten : ∀ line kind name, name ∈ r.session.names kind →
    name ∉ (r.process line).1.session.names kind →
      ∃ target, r.role line = .command (.ok (.purge target)) ∧
        (target = kind.target ∨ target = .all)
  /-- Declared again without a type, a variable keeps the type it has. -/
  retyped : ∀ statement name, lastType name (declarations statement) = none →
    (r.session.record statement).variableType name = r.session.variableType name
  /-- A statement recorded again adds nothing. -/
  repeated : ∀ statement,
    (r.session.record statement).record statement = r.session.record statement

theorem session_replays (completion : CompletionSettings) (color : Bool) (inputs : List Text) :
    ReplaysEvents ((Repl.opened completion color).trace inputs)
      ((Repl.opened completion color).after inputs) := by
  have hreplayed := Repl.after_replay completion color inputs
  refine {
    replayed := hreplayed
    listed := ?_
    typed := ?_
    undisturbed := ?_
    forgotten := fun line kind name => Repl.purged_of_not_mem
    retyped := ?_
    repeated := fun statement => Session.record_record _ statement }
  · intro kind name
    rw [← Session.mem_names_replay, ← hreplayed, Session.names_clearBuffer]
  · intro name
    rw [← Session.variableType_replay, ← hreplayed]
    rfl
  · intro line hnone
    rw [Repl.process_event, hnone]
    rfl
  · intro statement name hnone
    rw [Session.record, Session.variableType_declareAll, hnone, Option.none_or]

end GroovyShell
