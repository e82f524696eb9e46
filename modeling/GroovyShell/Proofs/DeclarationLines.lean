/-
  GroovyShell/Proofs/DeclarationLines.lean
  ========================================
  **Statements on lines of their own declare what they declare alone.**

  What is typed below a finished text is read as if it stood alone (`lexAll_below`),
  and on a new line a statement may start.  So two texts declare together what the
  one declares and then what the other does, provided that the first is at an end
  in the sense of declarations too: every bracket it opens is closed, and no
  declaration in it goes on with the first token of the second.
-/
import GroovyShell.Proofs.CursorToken
import GroovyShell.Proofs.DeclarationEnds
import GroovyShell.Proofs.Emission
import GroovyShell.Proofs.LinesBelow
import GroovyShell.Proofs.Spelling
import GroovyShell.Session.State
import GroovyShell.Statement

namespace GroovyShell

/-! ### Words alone declare -/

/-- A token without regard to its place. -/
def Token.bare (t : Token) : Token := { t with position := .start }

@[simp] theorem Token.bare_kind (t : Token) : t.bare.kind = t.kind := rfl

@[simp] theorem Token.bare_text (t : Token) : t.bare.text = t.text := rfl

@[simp] theorem Token.bare_isOperator (t : Token) (spelling : String) :
    t.bare.isOperator spelling = t.isOperator spelling := rfl

@[simp] theorem Token.bare_angleChange (t : Token) :
    t.bare.angleChange = t.angleChange := rfl

@[simp] theorem Token.bare_isImportPart (t : Token) :
    t.bare.isImportPart = t.isImportPart := rfl

theorem qualifiedName_bare (name : Text) (tokens : List Token) :
    qualifiedName name (tokens.map Token.bare) =
      ((qualifiedName name tokens).1, (qualifiedName name tokens).2.map Token.bare) := by
  fun_induction qualifiedName name tokens with
  | case1 name dot part rest hpart ih => simp [qualifiedName, hpart, ih]
  | case2 name dot part rest hpart => simp [qualifiedName, hpart]
  | case3 name tokens hshort =>
    rcases tokens with _ | ⟨dot, _ | ⟨part, rest⟩⟩
    · rfl
    · rfl
    · exact absurd rfl (hshort dot part rest)

theorem closeAngles_bare (opened : Int) (tokens : List Token) :
    closeAngles opened (tokens.map Token.bare) =
      (closeAngles opened tokens).map Token.bare := by
  fun_induction closeAngles opened tokens with
  | case1 => rfl
  | case2 opened t rest hclosed => simp [closeAngles, hclosed]
  | case3 opened t rest hclosed ih => simp [closeAngles, hclosed, ih]

theorem dropTypeArguments_bare (tokens : List Token) :
    dropTypeArguments (tokens.map Token.bare) =
      (dropTypeArguments tokens).map Token.bare := by
  cases tokens with
  | nil => rfl
  | cons t rest =>
    have hclose := closeAngles_bare 0 (t :: rest)
    rw [List.map_cons] at hclose
    by_cases hangle : t.text = ['<']
    · simp [dropTypeArguments, hangle, hclose]
    · simp [dropTypeArguments, hangle]

theorem arrayType_bare (type : Text) (tokens : List Token) :
    arrayType type (tokens.map Token.bare) =
      ((arrayType type tokens).1, (arrayType type tokens).2.map Token.bare) := by
  fun_induction arrayType type tokens with
  | case1 type left right rest hpair ih => simp [arrayType, hpair, ih]
  | case2 type left right rest hpair => simp [arrayType, hpair]
  | case3 type tokens hshort =>
    rcases tokens with _ | ⟨left, _ | ⟨right, rest⟩⟩
    · rfl
    · rfl
    · exact absurd rfl (hshort left right rest)

theorem typeReference_bare (tokens : List Token) :
    typeReference (tokens.map Token.bare) =
      (typeReference tokens).map fun found => (found.1, found.2.map Token.bare) := by
  cases tokens with
  | nil => rfl
  | cons first rest =>
    simp only [List.map_cons, typeReference, Token.bare_text, qualifiedName_bare]
    split
    · simp [dropTypeArguments_bare, arrayType_bare]
    · rfl

theorem evidentType_bare (tokens : List Token) :
    evidentType (tokens.map Token.bare) = evidentType tokens := by
  cases tokens with
  | nil => rfl
  | cons first rest =>
    have hcolon : (rest.map Token.bare).take 2 = (rest.take 2).map Token.bare :=
      List.map_take.symm
    simp only [List.map_cons, evidentType, Token.bare_kind, Token.bare_text, hcolon,
      List.any_map, typeReference_bare, Option.map_map]
    rfl

theorem assignedValue_bare (tokens : List Token) :
    assignedValue (tokens.map Token.bare) =
      (assignedValue tokens).map (List.map Token.bare) := by
  cases tokens with
  | nil => rfl
  | cons t rest =>
    cases hequals : t.isOperator "=" with
    | false => simp [assignedValue, hequals]
    | true => simp [assignedValue, hequals]

theorem head?_bare (kind : TokenKind) (tokens : List Token) :
    (tokens.map Token.bare).head?.any (·.kind = kind) =
      tokens.head?.any (·.kind = kind) := by
  cases tokens with
  | nil => rfl
  | cons t rest => rfl

theorem namedDeclaration_bare (declared : Option Text) (tokens : List Token) :
    namedDeclaration declared (tokens.map Token.bare) =
      namedDeclaration declared tokens := by
  cases tokens with
  | nil => rfl
  | cons name rest =>
    have hvalue : (evidentType ∘ List.map Token.bare) = evidentType :=
      funext (evidentType_bare)
    simp only [List.map_cons, namedDeclaration, Token.bare_kind, Token.bare_text, head?_bare,
      assignedValue_bare, Option.bind_map, hvalue]

theorem importDeclaration_bare (tokens : List Token) :
    importDeclaration (tokens.map Token.bare) = importDeclaration tokens := by
  have hstatic : dropStatic (tokens.map Token.bare) =
      (dropStatic tokens).map Token.bare := by
    cases tokens with
    | nil => rfl
    | cons t rest => by_cases ht : t.kind = .keyword .kwStatic <;> simp [dropStatic, ht]
  have halias (tokens : List Token) :
      importAlias (tokens.map Token.bare) = importAlias tokens := by
    rcases tokens with _ | ⟨word, _ | ⟨name, rest⟩⟩
    · rfl
    · rfl
    · rfl
  have hpart : (Token.isImportPart ∘ Token.bare) = Token.isImportPart := rfl
  have htext : (Token.text ∘ Token.bare) = Token.text := rfl
  simp only [importDeclaration, hstatic, List.takeWhile_map, List.map_map, List.length_map,
    ← List.map_drop, halias, hpart, htext]

theorem declarationAt_bare (tokens : List Token) :
    declarationAt (tokens.map Token.bare) = declarationAt tokens := by
  simp only [declarationAt, List.dropWhile_map, Function.comp_def, Token.bare_kind]
  generalize List.dropWhile _ tokens = tokens
  cases tokens with
  | nil => rfl
  | cons first rest =>
    have hreference := typeReference_bare (first :: rest)
    rw [List.map_cons] at hreference
    have hassigned : ((assignedValue rest).map (List.map Token.bare)).map
          (fun value => Declaration.binding first.text (evidentType value)) =
        (assignedValue rest).map fun value => .binding first.text (evidentType value) := by
      simp only [Option.map_map, Function.comp_def, evidentType_bare]
    simp only [List.map_cons, Token.bare_kind, Token.bare_text, importDeclaration_bare,
      namedDeclaration_bare, hreference, assignedValue_bare, hassigned]
    cases htype : typeReference (first :: rest) with
    | none => cases rest <;> rfl
    | some found =>
      simp only [Option.map_some, head?_bare, namedDeclaration_bare]
      cases rest <;> rfl

theorem map_bare_of_words {s t : List Token} (h : s.map Token.word = t.map Token.word) :
    s.map Token.bare = t.map Token.bare := by
  have hplaced := congrArg (List.map fun word => (⟨word.1, word.2, .start⟩ : Token)) h
  rwa [List.map_map, List.map_map] at hplaced

/-- What is declared depends on the words alone, wherever they stand. -/
theorem declarationAt_words {s t : List Token} (h : s.map Token.word = t.map Token.word) :
    declarationAt s = declarationAt t := by
  rw [← declarationAt_bare s, map_bare_of_words h, declarationAt_bare]

theorem evidentType_words {s t : List Token} (h : s.map Token.word = t.map Token.word) :
    evidentType s = evidentType t := by
  rw [← evidentType_bare s, map_bare_of_words h, evidentType_bare]

/-! ### The walk further down -/

section Lower

variable (lines : Nat)

theorem startsStatement_lower (before : Option Token) (t : Token) :
    startsStatement (before.map (Token.lower lines)) (t.lower lines) =
      startsStatement before t := by
  cases before with
  | none => rfl
  | some before => simp [startsStatement, Token.lower, Position.lower]

theorem map_word_lower (tokens : List Token) :
    (tokens.map (Token.lower lines)).map Token.word = tokens.map Token.word := by
  rw [List.map_map]
  rfl

theorem declarationsFrom_lower (depth : Nat) (before : Option Token) (tokens : List Token) :
    declarationsFrom depth (before.map (Token.lower lines)) (tokens.map (Token.lower lines)) =
      declarationsFrom depth before tokens := by
  induction tokens generalizing depth before with
  | nil => rfl
  | cons t rest ih =>
    have hdepth : depthAfter depth (t.lower lines) = depthAfter depth t := rfl
    have hhere := declarationAt_words (map_word_lower lines (t :: rest))
    have hrest := ih (depthAfter depth t) (some t)
    rw [List.map_cons] at hhere
    rw [Option.map_some] at hrest
    simp only [List.map_cons, declarationsFrom, hdepth, startsStatement_lower, hhere, hrest]

/-- Whether a declaration that some tokens hold at their outermost level goes on with
    a further token. -/
def declarationsGoOn (next : Token) (depth : Nat) (before : Option Token) : List Token → Bool
  | [] => false
  | t :: rest =>
    let depth := depthAfter depth t
    (depth = 0 && startsStatement before t && declarationGoesOn next (t :: rest)) ||
      declarationsGoOn next depth (some t) rest

/-- Tokens further down leave the declarations before them as they are. -/
theorem declarationsFrom_append {next : Token} {depth : Nat} {before : Option Token}
    {tokens : List Token} (h : declarationsGoOn next depth before tokens = false)
    (more : List Token) :
    declarationsFrom depth before (tokens ++ (next :: more).map (Token.lower lines)) =
      declarationsFrom depth before tokens ++
        declarationsFrom (tokens.foldl depthAfter depth) (tokens.getLast?.or before)
          ((next :: more).map (Token.lower lines)) := by
  induction tokens generalizing depth before with
  | nil => rfl
  | cons t rest ih =>
    simp only [declarationsGoOn, Bool.or_eq_false_iff] at h
    obtain ⟨hhere, hrest⟩ := h
    have hlast : (t :: rest).getLast?.or before = rest.getLast?.or (some t) := by
      rw [List.getLast?_cons]
      cases rest.getLast? <;> rfl
    rw [hlast, List.foldl_cons, List.cons_append]
    simp only [declarationsFrom, ih hrest, List.append_assoc]
    congr 1
    split
    · rename_i hstarts
      have hends : declarationGoesOn next (t :: rest) = false := by
        simpa only [hstarts, decide_true, Bool.true_and] using hhere
      -- The test is about `next` itself, and behind `t` it stands further down.
      have hsame : (t :: (rest ++ (next :: more).map (Token.lower lines))).map Token.word =
          (t :: rest ++ next :: more).map Token.word := by
        simp only [List.map_append, List.map_cons, List.cons_append, map_word_lower]
        rfl
      rw [declarationAt_words hsame, declarationAt_append hends]
    · rfl

/-- At the outermost level tokens on a new line are read as if they stood alone. -/
theorem declarationsFrom_newLine {before : Option Token} {tokens : List Token}
    (h : ∀ last ∈ before, ∀ t ∈ tokens.head?, last.position.line < t.position.line) :
    declarationsFrom 0 before tokens = declarationsFrom 0 none tokens := by
  cases tokens with
  | nil => rfl
  | cons t rest =>
    have hstarts : startsStatement before t = startsStatement none t := by
      cases before with
      | none => rfl
      | some last => simp [startsStatement, h last rfl t rfl]
    simp only [declarationsFrom, hstarts]

/-- Tokens on lines below are read as if they stood alone, if those above are at an end. -/
theorem declarationsFrom_below {above below : List Token}
    (hlast : ∀ last ∈ above.getLast?, last.position.line ≤ lines)
    (hfirst : ∀ first ∈ below.head?, 1 ≤ first.position.line)
    (hclosed : above.foldl depthAfter 0 = 0)
    (hends : ∀ next ∈ below.head?, declarationsGoOn next 0 none above = false) :
    declarationsFrom 0 none (above ++ below.map (Token.lower lines)) =
      declarationsFrom 0 none above ++ declarationsFrom 0 none below := by
  cases below with
  | nil => simp [declarationsFrom]
  | cons next more =>
    -- `above` ends on one of its `lines` lines, and `next` is on a later one.
    have hlines : ∀ last ∈ above.getLast?, ∀ t ∈ ((next :: more).map (Token.lower lines)).head?,
        last.position.line < t.position.line := by
      intro last hmem t ht
      obtain rfl : next.lower lines = t := Option.mem_some.mp ht
      have hle := hlast last hmem
      have hpos := hfirst next rfl
      simp only [Token.lower, Position.lower]
      omega
    have halone := declarationsFrom_lower lines 0 none (next :: more)
    rw [Option.map_none] at halone
    rw [declarationsFrom_append lines (hends next rfl), hclosed, Option.or_none,
      declarationsFrom_newLine hlines, halone]

end Lower

/-! ### One text below another -/

/-- A finished text that is read to its end leaves no interpolation open. -/
theorem nesting_of_complete {source : Text} {eof : Token}
    (hfinished : completeness source = .complete) (hend : (lexAll source).ending = .ok eof) :
    (lexAll source).lexer.nesting = [] := by
  unfold completeness at hfinished
  split at hfinished
  · rename_i hblank
    exact (Lexer.run_gap (l := .new source) (.plain (.blanks hblank))).2.2
  · simp only [hend] at hfinished
    split at hfinished
    · simp at hfinished
    · rename_i hopen
      simp only [not_or, Nat.not_lt, Nat.le_zero, List.length_eq_zero_iff] at hopen
      exact hopen.1

theorem LaidOut.first_line {before t : Text} {nesting : List Interpolation}
    {tokens : List Token} {ending : Except LexError Token}
    (h : LaidOut before nesting t tokens ending) :
    ∀ first ∈ tokens.head?, 1 ≤ first.position.line := by
  intro first hfirst
  cases h with
  | token _ _ _ _ hposition _ =>
    obtain rfl := Option.mem_some.mp hfirst
    rw [hposition]
    exact Nat.le_add_right 1 _
  | _ => simp at hfirst

/-- The last token of a text is on one of its lines. -/
theorem lexAll_last_line {source : Text} {eof : Token} (hend : (lexAll source).ending = .ok eof) :
    ∀ last ∈ (lexAll source).tokens.getLast?, last.position.line ≤ 1 + source.count '\n' := by
  intro last hlast
  obtain ⟨front, gap, hsource, hplace, -⟩ := (lexAll_laidOut source).last_token hend hlast
  rw [List.nil_append] at hsource
  rw [hplace, hsource]
  simp only [Position.behind, List.count_append]
  omega

/-- **Statements on lines of their own declare what they declare alone.**  The first
    is finished, has closed the brackets it has opened, and none of its declarations
    goes on with the first token of the second, which does not begin as a script
    does.  Then together they declare what each declares, in order, and the session
    that records them together is the one that records one after the other. -/
theorem declarations_lines {a b : Text} {above below : List Token}
    (ha : tokensOf a = .ok above) (hb : tokensOf b = .ok below)
    (hfinished : completeness a = .complete) (hmark : b.beginsWith ['#', '!'] = false)
    (hclosed : above.foldl depthAfter 0 = 0)
    (hends : ∀ next ∈ below.head?, declarationsGoOn next 0 none above = false) :
    declarations (a ++ '\n' :: b) = declarations a ++ declarations b ∧
      ∀ s : Session, s.record (a ++ '\n' :: b) = (s.record a).record b := by
  have htogether : declarations (a ++ '\n' :: b) = declarations a ++ declarations b := by
    obtain ⟨⟨eof, hend⟩, rfl⟩ := tokensOf_eq_ok.mp ha
    obtain ⟨⟨last, hlast⟩, rfl⟩ := tokensOf_eq_ok.mp hb
    obtain ⟨htokens, hending, -⟩ := lexAll_below hend (nesting_of_complete hfinished hend) hmark
    rw [hlast] at hending
    have hjoined := tokensOf_eq_ok.mpr ⟨⟨_, hending⟩, htokens⟩
    simp only [declarations, ha, hb, hjoined]
    exact declarationsFrom_below _ (lexAll_last_line hend) (lexAll_laidOut b).first_line hclosed hends
  refine ⟨htogether, ?_⟩
  intro s
  simp only [Session.record, htogether, List.foldl_append]

/-- Two declarations on lines of their own, and two more below them. -/
theorem declarations_lines_four :
    let a : Text := "import a.B as C\nList<K> m".toList
    let b : Text := "z = 1; class D".toList
    completeness a = .complete ∧ b.beginsWith ['#', '!'] = false ∧
      declarations a =
        [.importing "a.B as C".toList, .binding "m".toList (some "List".toList)] ∧
      declarations b = [.binding "z".toList (some "Integer".toList), .type "D".toList] ∧
      declarations (a ++ '\n' :: b) = declarations a ++ declarations b ∧
      ∀ s : Session, s.record (a ++ '\n' :: b) = (s.record a).record b := by
  intro a b
  have ha : tokensOf a = .ok (lexAll a).tokens :=
    tokensOf_eq_ok.mpr ⟨⟨⟨.endOfInput, [], ⟨2, 10⟩⟩, by decide +kernel⟩, rfl⟩
  have hb : tokensOf b = .ok (lexAll b).tokens :=
    tokensOf_eq_ok.mpr ⟨⟨⟨.endOfInput, [], ⟨1, 15⟩⟩, by decide +kernel⟩, rfl⟩
  have hfinished : completeness a = .complete := by decide +kernel
  have hmark : b.beginsWith ['#', '!'] = false := by decide +kernel
  have hclosed : (lexAll a).tokens.foldl depthAfter 0 = 0 := by decide +kernel
  have hends : ∀ next ∈ (lexAll b).tokens.head?,
      declarationsGoOn next 0 none (lexAll a).tokens = false := by decide +kernel
  refine ⟨hfinished, hmark, by decide +kernel, by decide +kernel, ?_⟩
  exact declarations_lines ha hb hfinished hmark hclosed hends

/-- Texts that can both be read, the first of them finished, and that together do not
    declare what each declares alone. -/
def DeclareOtherwise (a b : Text) : Prop :=
  (tokensOf a).toOption.isSome = true ∧ (tokensOf b).toOption.isSome = true ∧
    completeness a = .complete ∧ declarations (a ++ '\n' :: b) ≠ declarations a ++ declarations b

instance (a b : Text) : Decidable (DeclareOtherwise a b) :=
  inferInstanceAs (Decidable (_ ∧ _ ∧ _ ∧ _))

/-- No condition can be left out: a `#!` line is none below another line, a bracket
    that opens behind one too many stays open, and the value of a variable may stand
    on the next line. -/
theorem declarations_lines_apart :
    DeclareOtherwise "x = 1".toList "#!y".toList ∧
      DeclareOtherwise "\x7d\x7b".toList "x = 1".toList ∧
      DeclareOtherwise "def x".toList "= 5".toList := by
  decide +kernel

end GroovyShell
