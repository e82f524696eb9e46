/-
  GroovyShell/Proofs/DeclarationEnds.lean
  =======================================
  **Where a declaration ends.**

  A declaration is read off a row of tokens with no regard to lines, and each of
  its parts looks as far as it can: a path for another dot, a type for arguments
  and array brackets, a name for what stands behind it.  For each part there is
  a test here of whether it goes on with one more token, behind tokens that end
  just there.  If it does not, then nothing that follows changes what is read.
-/
import GroovyShell.Session.Declaration

namespace GroovyShell

section Ends

variable {next : Token} {tokens : List Token}

/-! ### Type references -/

/-- Whether pairs of tokens of two kinds go on with a further token. -/
def pairsGoOn (left right : TokenKind) (next : Token) : List Token → Bool
  | [] => next.kind = left
  | [first] => first.kind = left && next.kind = right
  | first :: second :: rest =>
    first.kind = left && second.kind = right && pairsGoOn left right next rest

theorem qualifiedName_append (h : pairsGoOn (.dot .plain) .name next tokens = false)
    (name : Text) (more : List Token) :
    qualifiedName name (tokens ++ next :: more) =
      ((qualifiedName name tokens).1, (qualifiedName name tokens).2 ++ next :: more) := by
  fun_induction pairsGoOn (.dot .plain) .name next tokens generalizing name with
  | case1 =>
    have hdot : next.kind ≠ .dot .plain := by simpa using h
    cases more with
    | nil => rfl
    | cons second more => simp [qualifiedName, hdot]
  | case2 first =>
    have hpair : ¬ (first.kind = .dot .plain ∧ next.kind = .name) := by simpa using h
    simp [qualifiedName, hpair]
  | case3 first second rest ih =>
    by_cases hpair : first.kind = .dot .plain ∧ second.kind = .name
    · have hrest : pairsGoOn (.dot .plain) .name next rest = false := by simpa [hpair] using h
      simp only [List.cons_append, qualifiedName, if_pos hpair]
      exact ih hrest (name ++ '.' :: second.text)
    · simp [qualifiedName, hpair]

theorem arrayType_append
    (h : pairsGoOn (.opening .square) (.closing .square) next tokens = false)
    (type : Text) (more : List Token) :
    arrayType type (tokens ++ next :: more) =
      ((arrayType type tokens).1, (arrayType type tokens).2 ++ next :: more) := by
  fun_induction pairsGoOn (.opening .square) (.closing .square) next tokens generalizing type with
  | case1 =>
    have hleft : next.kind ≠ .opening .square := by simpa using h
    cases more with
    | nil => rfl
    | cons second more => simp [arrayType, hleft]
  | case2 first =>
    have hpair : ¬ (first.kind = .opening .square ∧ next.kind = .closing .square) := by
      simpa using h
    simp [arrayType, hpair]
  | case3 first second rest ih =>
    by_cases hpair : first.kind = .opening .square ∧ second.kind = .closing .square
    · have hrest : pairsGoOn (.opening .square) (.closing .square) next rest = false := by
        simpa [hpair] using h
      simp only [List.cons_append, arrayType, if_pos hpair]
      exact ih hrest (type ++ ['[', ']'])
    · simp [arrayType, hpair]

/-- Whether angle brackets stay open to the end of the tokens. -/
def anglesStayOpen (opened : Int) : List Token → Bool
  | [] => true
  | t :: rest =>
    0 < opened + t.angleChange && anglesStayOpen (opened + t.angleChange) rest

theorem closeAngles_append {opened : Int} (h : anglesStayOpen opened tokens = false)
    (more : List Token) :
    closeAngles opened (tokens ++ more) = closeAngles opened tokens ++ more := by
  fun_induction anglesStayOpen opened tokens with
  | case1 => simp at h
  | case2 opened t rest ih =>
    by_cases hclosed : opened + t.angleChange ≤ 0
    · simp [closeAngles, hclosed]
    · have hopen : 0 < opened + t.angleChange := Int.not_le.mp hclosed
      have hrest : anglesStayOpen (opened + t.angleChange) rest = false := by
        simpa [hopen] using h
      simp only [List.cons_append, closeAngles, if_neg hclosed]
      exact ih hrest

def typeArgumentsGoOn (next : Token) : List Token → Bool
  | [] => next.text = ['<']
  | t :: rest => t.text = ['<'] && anglesStayOpen 0 (t :: rest)

theorem dropTypeArguments_append (h : typeArgumentsGoOn next tokens = false)
    (more : List Token) :
    dropTypeArguments (tokens ++ next :: more) = dropTypeArguments tokens ++ next :: more := by
  cases tokens with
  | nil =>
    have hangle : next.text ≠ ['<'] := by simpa [typeArgumentsGoOn] using h
    simp [dropTypeArguments, hangle]
  | cons t rest =>
    by_cases hangle : t.text = ['<']
    · have hclosed : anglesStayOpen 0 (t :: rest) = false := by
        simpa [typeArgumentsGoOn, hangle] using h
      simp only [List.cons_append, dropTypeArguments, if_pos hangle]
      rw [← List.cons_append]
      exact closeAngles_append hclosed (next :: more)
    · simp [dropTypeArguments, hangle]

/-- Whether a qualified name can be one of a type. -/
def namesType (name : Text) : Bool := (name.lastPart '.').head?.any isCapital

/-- Whether the type at the head of some tokens goes on with a further token. -/
def typeGoesOn (next : Token) : List Token → Bool
  | [] => true
  | first :: rest =>
    pairsGoOn (.dot .plain) .name next rest ||
      (namesType (qualifiedName first.text rest).1 &&
        (typeArgumentsGoOn next (qualifiedName first.text rest).2 ||
          pairsGoOn (.opening .square) (.closing .square) next
            (dropTypeArguments (qualifiedName first.text rest).2)))

theorem typeReference_append (h : typeGoesOn next tokens = false) (more : List Token) :
    typeReference (tokens ++ next :: more) =
      (typeReference tokens).map fun found => (found.1, found.2 ++ next :: more) := by
  cases tokens with
  | nil => simp [typeGoesOn] at h
  | cons first rest =>
    simp only [typeGoesOn, Bool.or_eq_false_iff] at h
    obtain ⟨hpath, htype⟩ := h
    have hname := qualifiedName_append hpath first.text more
    simp only [List.cons_append, typeReference, hname]
    by_cases hcapital : namesType (qualifiedName first.text rest).1 = true
    · simp only [hcapital, Bool.true_and, Bool.or_eq_false_iff] at htype
      obtain ⟨harguments, harray⟩ := htype
      rw [namesType] at hcapital
      rw [if_pos hcapital, if_pos hcapital, dropTypeArguments_append harguments,
        arrayType_append harray]
      rfl
    · rw [namesType] at hcapital
      rw [if_neg hcapital, if_neg hcapital]
      rfl

/-! ### Values and names -/

/-- Whether the type that is plain from a value may change with a further token. -/
def evidentTypeGoesOn (next : Token) : List Token → Bool
  | [] => true
  | first :: rest =>
    match first.kind with
    | .opening .square =>
      match rest with
      | [] => true
      | [_] => next.kind = .colon
      | _ :: _ :: _ => false
    | .keyword .kwNew => typeGoesOn next rest
    | _ => false

theorem evidentType_append (h : evidentTypeGoesOn next tokens = false) (more : List Token) :
    evidentType (tokens ++ next :: more) = evidentType tokens := by
  cases tokens with
  | nil => simp [evidentTypeGoesOn] at h
  | cons first rest =>
    obtain ⟨kind, text, position⟩ := first
    simp only [evidentTypeGoesOn] at h
    split at h
    · match rest, h with
      | [second], h =>
        -- a list or a map: that is seen by a colon among two tokens
        have hcolon : next.kind ≠ .colon := by simpa using h
        simp [evidentType, hcolon]
      | second :: third :: rest, _ => rfl
    · simp only [List.cons_append, evidentType, typeReference_append h, Option.map_map]
      rfl
    · rename_i hsquare hnew
      simp only [List.cons_append, evidentType]
      split
      case h_6 => exact absurd rfl hsquare
      case h_7 => exact absurd rfl hnew
      all_goals rfl

def valueGoesOn (next : Token) : List Token → Bool
  | [] => next.isOperator "="
  | t :: rest => t.isOperator "=" && evidentTypeGoesOn next rest

theorem assignedValue_append (h : valueGoesOn next tokens = false) (more : List Token) :
    (assignedValue (tokens ++ next :: more)).map evidentType =
      (assignedValue tokens).map evidentType := by
  cases tokens with
  | nil =>
    have hequals : next.isOperator "=" = false := h
    simp [assignedValue, hequals]
  | cons t rest =>
    cases hequals : t.isOperator "=" with
    | false => simp [assignedValue, hequals]
    | true =>
      have hvalue : evidentTypeGoesOn next rest = false := by simpa [valueGoesOn, hequals] using h
      simp [assignedValue, hequals, evidentType_append hvalue]

theorem assignment_append (h : valueGoesOn next tokens = false) (name : Text)
    (more : List Token) :
    ((assignedValue (tokens ++ next :: more)).map fun value =>
        Declaration.binding name (evidentType value)) =
      (assignedValue tokens).map fun value => .binding name (evidentType value) := by
  have hsame := congrArg (Option.map (Declaration.binding name)) (assignedValue_append h more)
  rwa [Option.map_map, Option.map_map] at hsame

/-- Whether the declaration of a name, of whose type is known what is written, goes
    on with a further token. -/
def namedGoesOn (declared : Option Text) (next : Token) : List Token → Bool
  | [] => next.kind = .name
  | name :: rest =>
    name.kind = .name &&
      (rest.isEmpty && next.kind = .opening .paren || declared.isNone && valueGoesOn next rest)

theorem namedDeclaration_append {declared : Option Text}
    (h : namedGoesOn declared next tokens = false) (more : List Token) :
    namedDeclaration declared (tokens ++ next :: more) = namedDeclaration declared tokens := by
  cases tokens with
  | nil =>
    have hname : next.kind ≠ .name := by simpa [namedGoesOn] using h
    simp [namedDeclaration, hname]
  | cons name rest =>
    by_cases hname : name.kind = .name
    · simp only [namedGoesOn, hname, decide_true, Bool.true_and, Bool.or_eq_false_iff] at h
      obtain ⟨hmethod, hvalue⟩ := h
      have hcall : (rest ++ next :: more).head?.any (·.kind = .opening .paren) =
          rest.head?.any (·.kind = .opening .paren) := by
        cases rest with
        | nil => simpa using hmethod
        | cons second rest => rfl
      have htype : declared.or ((assignedValue (rest ++ next :: more)).bind evidentType) =
          declared.or ((assignedValue rest).bind evidentType) := by
        cases declared with
        | some type => rfl
        | none =>
          simp only [Option.isNone_none, Bool.true_and] at hvalue
          have hsame := congrArg (·.bind id) (assignedValue_append hvalue more)
          simpa only [Option.none_or, Option.bind_map, Function.id_comp] using hsame
      simp only [List.cons_append, namedDeclaration, hname, if_true, hcall, htype]
    · simp [namedDeclaration, hname]

/-! ### Imports -/

/-- Whether an import clause goes on with a further token. -/
def importGoesOn (next : Token) (tokens : List Token) : Bool :=
  match (dropStatic tokens).dropWhile Token.isImportPart with
  | [] =>
    -- `static` is dropped only in front of everything else
    next.isImportPart || next.kind = .keyword .kwAs ||
      tokens.isEmpty && next.kind = .keyword .kwStatic
  | [word] => word.kind = .keyword .kwAs && next.kind = .name
  | _ :: _ :: _ => false

theorem dropStatic_append (h : (tokens.isEmpty && next.kind = .keyword .kwStatic) = false)
    (more : List Token) :
    dropStatic (tokens ++ next :: more) = dropStatic tokens ++ next :: more := by
  cases tokens with
  | nil =>
    have hstatic : next.kind ≠ .keyword .kwStatic := by simpa using h
    simp [dropStatic, hstatic]
  | cons t rest =>
    simp only [List.cons_append, dropStatic]
    split
    · rfl
    · rfl

/-- A path ends where it did if what follows could not belong to it. -/
theorem importPath_append
    (h : tokens.dropWhile Token.isImportPart = [] → next.isImportPart = false)
    (more : List Token) :
    (tokens ++ next :: more).takeWhile Token.isImportPart = tokens.takeWhile Token.isImportPart ∧
      (tokens ++ next :: more).dropWhile Token.isImportPart =
        tokens.dropWhile Token.isImportPart ++ next :: more := by
  induction tokens with
  | nil =>
    have hnext := h rfl
    simp [hnext]
  | cons t rest ih =>
    cases hpart : t.isImportPart with
    | false => simp [hpart]
    | true =>
      rw [List.dropWhile_cons_of_pos hpart] at h
      obtain ⟨htaken, hleft⟩ := ih h
      simp [hpart, htaken, hleft]

theorem drop_importPath (tokens : List Token) :
    tokens.drop (tokens.takeWhile Token.isImportPart).length =
      tokens.dropWhile Token.isImportPart := by
  calc
    _ = (tokens.takeWhile Token.isImportPart ++ tokens.dropWhile Token.isImportPart).drop
          (tokens.takeWhile Token.isImportPart).length := by
        rw [List.takeWhile_append_dropWhile]
    _ = tokens.dropWhile Token.isImportPart := List.drop_left

theorem importDeclaration_append (h : importGoesOn next tokens = false) (more : List Token) :
    importDeclaration (tokens ++ next :: more) = importDeclaration tokens := by
  have hstatic : (tokens.isEmpty && next.kind = .keyword .kwStatic) = false := by
    cases tokens with
    | nil =>
      simp only [importGoesOn, dropStatic, List.dropWhile_nil, Bool.or_eq_false_iff] at h
      exact h.2
    | cons t rest => rfl
  have hpart : (dropStatic tokens).dropWhile Token.isImportPart = [] →
      next.isImportPart = false := by
    intro hend
    simp only [importGoesOn, hend, Bool.or_eq_false_iff] at h
    exact h.1.1
  obtain ⟨htaken, hleft⟩ := importPath_append hpart more
  have halias : importAlias ((dropStatic tokens).dropWhile Token.isImportPart ++ next :: more) =
      importAlias ((dropStatic tokens).dropWhile Token.isImportPart) := by
    unfold importGoesOn at h
    split at h
    · rename_i hend
      have has : next.kind ≠ .keyword .kwAs := by
        simp only [Bool.or_eq_false_iff, decide_eq_false_iff_not] at h
        exact h.1.2
      rw [hend]
      cases more with
      | nil => rfl
      | cons name more => simp [importAlias, has]
    · rename_i word hword
      have hname : ¬ (word.kind = .keyword .kwAs ∧ next.kind = .name) := by simpa using h
      rw [hword]
      simp [importAlias, hname]
    · rename_i word name rest hwords
      rw [hwords]
      rfl
  simp only [importDeclaration, dropStatic_append hstatic, htaken, drop_importPath]
  rw [← htaken, drop_importPath, htaken, hleft, halias]

/-! ### Declarations -/

/-- Whether the declaration at the head of some tokens goes on with a further token. -/
def declarationGoesOn (next : Token) : List Token → Bool
  | [] => true
  | first :: rest =>
    match first.kind with
    | .keyword .kwImport => importGoesOn next rest
    | .keyword .kwDef => namedGoesOn none next rest
    | .keyword word =>
      if word.isModifier then declarationGoesOn next rest
      else if word.declaresType then rest.isEmpty && next.kind = .name
      else word.isPrimitiveType && namedGoesOn (some word.spelling.toList) next rest
    | .name =>
      typeGoesOn next (first :: rest) ||
        match typeReference (first :: rest) with
        | some (_, []) => next.kind = .name || valueGoesOn next rest
        | some (type, name :: more) =>
          if name.kind = .name then namedGoesOn (some type) next (name :: more)
          else valueGoesOn next rest
        | none => valueGoesOn next rest
    | _ => false

theorem declarationAt_append (h : declarationGoesOn next tokens = false) (more : List Token) :
    declarationAt (tokens ++ next :: more) = declarationAt tokens := by
  fun_induction declarationGoesOn next tokens with
  | case1 => simp at h
  | case2 first rest hkind =>
    simp [declarationAt, hkind, Keyword.isModifier, importDeclaration_append h]
  | case3 first rest hkind =>
    simp [declarationAt, hkind, Keyword.isModifier, namedDeclaration_append h]
  | case4 first rest word himport hdef hkind hmodifier ih =>
    have hrest := ih h
    simp only [declarationAt, List.cons_append, List.dropWhile_cons, hkind, hmodifier,
      if_true] at hrest ⊢
    exact hrest
  | case5 first rest word himport hdef hkind hmodifier htype =>
    cases rest with
    | nil =>
      have hname : next.kind ≠ .name := by simpa using h
      simp [declarationAt, hkind, hmodifier, htype, hname]
    | cons name rest => simp [declarationAt, hkind, hmodifier, htype]
  | case6 first rest word himport hdef hkind hmodifier htype =>
    cases hprimitive : word.isPrimitiveType with
    | false => simp [declarationAt, hkind, hmodifier, htype, hprimitive]
    | true =>
      have hnamed : namedGoesOn (some word.spelling.toList) next rest = false := by
        simpa [hprimitive] using h
      simp [declarationAt, hkind, hmodifier, htype, hprimitive, namedDeclaration_append hnamed]
  | case7 first rest hkind =>
    simp only [Bool.or_eq_false_iff] at h
    obtain ⟨htype, hbehind⟩ := h
    have hreference := typeReference_append htype more
    rw [List.cons_append] at hreference
    split at hbehind
    · rename_i type hfound
      simp only [Bool.or_eq_false_iff, decide_eq_false_iff_not] at hbehind
      obtain ⟨hname, hvalue⟩ := hbehind
      simp [declarationAt, hkind, hreference, hfound, hname, assignment_append hvalue]
    · rename_i type name behind hfound
      split at hbehind
      · rename_i hname
        have hnamed := namedDeclaration_append hbehind more
        rw [List.cons_append] at hnamed
        simp [declarationAt, hkind, hreference, hfound, hname, hnamed]
      · rename_i hname
        simp [declarationAt, hkind, hreference, hfound, hname, assignment_append hbehind]
    · rename_i hfound
      simp [declarationAt, hkind, hreference, hfound, assignment_append hbehind]
  | case8 first rest himport hdef hkeyword hname =>
    obtain ⟨kind, text, position⟩ := first
    simp only at himport hdef hkeyword hname
    cases kind with
    | keyword word => exact absurd rfl (hkeyword word)
    | name => exact absurd rfl hname
    | _ => rfl

end Ends

/-! ### Readers leave the end of what they read -/

theorem qualifiedName_suffix (name : Text) (tokens : List Token) :
    (qualifiedName name tokens).2 <:+ tokens := by
  fun_induction qualifiedName name tokens with
  | case1 name dot part rest _ ih =>
    exact (ih.trans (List.suffix_cons part rest)).trans (List.suffix_cons dot _)
  | case2 => exact List.suffix_refl _
  | case3 => exact List.suffix_refl _

theorem closeAngles_suffix (opened : Int) (tokens : List Token) :
    closeAngles opened tokens <:+ tokens := by
  fun_induction closeAngles opened tokens with
  | case1 => exact List.suffix_refl _
  | case2 opened t rest _ => exact List.suffix_cons t rest
  | case3 opened t rest _ ih => exact ih.trans (List.suffix_cons t rest)

theorem dropTypeArguments_suffix (tokens : List Token) : dropTypeArguments tokens <:+ tokens := by
  unfold dropTypeArguments
  split
  · exact List.suffix_refl _
  · split
    · exact closeAngles_suffix 0 _
    · exact List.suffix_refl _

/-! ### Assignments -/

/-- A type ends before an operator that opens no generic arguments. -/
theorem typeReference_before_operator (first : Token) {sign : Token} (hkind : sign.kind = .operator)
    (htext : sign.text ≠ ['<']) (value : List Token) :
    typeReference (first :: sign :: value) =
      if (first.text.lastPart '.').head?.any isCapital then some (first.text, sign :: value)
      else none := by
  have hqualified : qualifiedName first.text (sign :: value) = (first.text, sign :: value) := by
    cases value <;> simp [qualifiedName, hkind]
  have harray : arrayType first.text (sign :: value) = (first.text, sign :: value) := by
    cases value <;> simp [arrayType, hkind]
  have hdropped : dropTypeArguments (sign :: value) = sign :: value := by
    simp [dropTypeArguments, htext]
  simp only [typeReference, hqualified, hdropped, harray]

theorem declarationAt_assigned (text : Text) (p q : Position) (value : List Token) :
    declarationAt (⟨.name, text, p⟩ :: ⟨.operator, ['='], q⟩ :: value) =
      some (.binding text (evidentType value)) := by
  have hassigned : assignedValue (⟨.operator, ['='], q⟩ :: value) = some value := by
    simp [assignedValue, Token.isOperator]
  have htype : typeReference (⟨.name, text, p⟩ :: ⟨.operator, ['='], q⟩ :: value) = _ :=
    typeReference_before_operator _ rfl (by simp) value
  simp only [declarationAt, List.dropWhile_cons, Bool.false_eq_true, if_false, htype, hassigned,
    Option.map_some]
  split
  · rename_i type after hsome
    split at hsome
    · cases hsome
      rfl
    · simp at hsome
  · rfl

end GroovyShell
