/-
  GroovyShell/Proofs/StatementGrammar.lean
  ========================================
  **Every statement of the grammar declares just what it says.**

  A program is a list of statements on one line with semicolons between them:
  imports, types, variables, assignments and methods.  Each is given by the
  words it is written with and by the declaration it stands for.  Whatever text
  reads as the words of a program declares the declarations of its statements,
  in order: each is recognized where it begins, and nothing else is.
-/
import GroovyShell.Proofs.BalancedWords
import GroovyShell.Proofs.ImportLines

namespace GroovyShell

/-! ### Parts of statements -/

def Keyword.word (k : Keyword) : TokenKind × Text := (.keyword k, k.spelling.toList)

def Identifier.word (n : Identifier) : TokenKind × Text := (.name, n.text)

def Bracket.left : Bracket → TokenKind × Text
  | .paren => (.opening .paren, ['('])
  | .brace => (.opening .brace, ['\x7b'])
  | .square => (.opening .square, ['['])

def Bracket.right : Bracket → TokenKind × Text
  | .paren => (.closing .paren, [')'])
  | .brace => (.closing .brace, ['\x7d'])
  | .square => (.closing .square, [']'])

def semicolonWord : TokenKind × Text := (.semicolon, [';'])

def assignWord : TokenKind × Text := (.operator, ['='])

abbrev Modifier := { k : Keyword // k.isModifier = true }

def modifierWords (modifiers : List Modifier) : List (TokenKind × Text) :=
  modifiers.map fun m => m.val.word

/-- What stands between two brackets. -/
structure Enclosed where
  words : List (TokenKind × Text)
  balanced : Balanced (fun _ => true) words

def Enclosed.between (e : Enclosed) (b : Bracket) : List (TokenKind × Text) :=
  b.left :: (e.words ++ [b.right])

/-- Whether angle brackets, of which some are open, are closed with the last of the
    words and not before. -/
def closesAngles : Int → List (TokenKind × Text) → Bool
  | opened, [] => opened = 0
  | opened, word :: rest =>
    0 < opened && closesAngles (opened + (Token.ofWord word).angleChange) rest

/-- The words of generic arguments behind the bracket that opens them. -/
structure TypeArguments where
  behind : List (TokenKind × Text)
  closed : closesAngles 1 behind = true
  balanced : Balanced withinStatement behind

def TypeArguments.words (a : TypeArguments) : List (TokenKind × Text) :=
  (.operator, ['<']) :: a.behind

/-- A dotted name whose last part is capitalized, possibly with generic arguments,
    and any number of array brackets. -/
structure TypeName where
  first : Identifier
  more : List Identifier
  capital : (more.getLast?.getD first).text.head?.any isCapital = true
  arguments : Option TypeArguments
  arrays : Nat

namespace TypeName

def path (type : TypeName) : Text := type.first.text ++ Identifier.dotted type.more

def argumentWords (type : TypeName) : List (TokenKind × Text) :=
  (type.arguments.map TypeArguments.words).getD []

def arrayWords (arrays : Nat) : List (TokenKind × Text) :=
  (List.replicate arrays [Bracket.square.left, Bracket.square.right]).flatten

def words (type : TypeName) : List (TokenKind × Text) :=
  type.first.word :: (Identifier.dottedWords type.more ++
    (type.argumentWords ++ arrayWords type.arrays))

/-- The type without its generic arguments. -/
def text (type : TypeName) : Text :=
  type.path ++ (List.replicate type.arrays ['[', ']']).flatten

end TypeName

/-- How the type of a variable or of a method's result is written. -/
inductive WrittenType where
  | any
  | primitive (word : Keyword) (isPrimitive : word.isPrimitiveType = true)
  | named (type : TypeName)

namespace WrittenType

def words : WrittenType → List (TokenKind × Text)
  | .any => [Keyword.kwDef.word]
  | .primitive word _ => [word.word]
  | .named type => type.words

def declared : WrittenType → Option Text
  | .any => none
  | .primitive word _ => some word.spelling.toList
  | .named type => some type.text

end WrittenType

/-- Whether a word may stand in a value outside of brackets, or open one there. -/
def withinValue (word : TokenKind × Text) : Bool := withinStatement word && word.2 ≠ ['<']

structure Value where
  words : List (TokenKind × Text)
  nonempty : words ≠ []
  balanced : Balanced withinValue words

/-- How a value, if there is one, is assigned. -/
def Value.assigned (value : Option Value) : List (TokenKind × Text) :=
  (value.map fun v => assignWord :: v.words).getD []

/-- The type evident from a value, with what stands behind it. -/
def Value.evident (v : Value) (behind : List (TokenKind × Text)) : Option Text :=
  evidentType ((v.words ++ behind).map Token.ofWord)

/-- Whether a value begins with `new` and a bracket.  What is then read as a type may
    have generic arguments that end only behind the value. -/
def Value.looksAhead (v : Value) : Bool :=
  match v.words with
  | word :: first :: _ => word.1 = .keyword .kwNew && first.1.opens
  | _ => false

/-- What stands between the name of a type and its body. -/
structure Header where
  words : List (TokenKind × Text)
  plain : ∀ word ∈ words, word.1.opens = false ∧ word.1.closes = false ∧ word.1 ≠ .semicolon

/-! ### Statements -/

inductive Statement where
  | importing (isStatic : Bool) (clause : ImportClause)
  | type (modifiers : List Modifier) (word : Keyword) (isType : word.declaresType = true)
      (name : Identifier) (header : Header) (body : Enclosed)
  | binding (modifiers : List Modifier) (written : WrittenType) (name : Identifier)
      (value : Option Value)
  | assignment (name : Identifier) (value : Value)
  | method (modifiers : List Modifier) (written : WrittenType) (name : Identifier)
      (parameters body : Enclosed)

namespace Statement

def words : Statement → List (TokenKind × Text)
  | .importing isStatic clause => clause.words isStatic
  | .type modifiers word _ name header body =>
    modifierWords modifiers ++ (word.word :: name.word :: (header.words ++ body.between .brace))
  | .binding modifiers written name value =>
    modifierWords modifiers ++ (written.words ++ name.word :: Value.assigned value)
  | .assignment name value => name.word :: assignWord :: value.words
  | .method modifiers written name parameters body =>
    modifierWords modifiers ++
      (written.words ++ name.word :: (parameters.between .paren ++ body.between .brace))

/-- What a statement declares in front of some words. -/
def declared (behind : List (TokenKind × Text)) : Statement → Declaration
  | .importing _ clause => .importing clause.text
  | .type _ _ _ name _ _ => .type name.text
  | .binding _ written name value =>
    .binding name.text (written.declared.or (value.bind fun v => v.evident behind))
  | .assignment name value => .binding name.text (value.evident behind)
  | .method _ _ name _ _ => .method name.text

def value : Statement → Option Value
  | .binding _ _ _ value => value
  | .assignment _ value => some value
  | _ => none

end Statement

def programWords (program : List Statement) : List (TokenKind × Text) :=
  [semicolonWord].intercalate (program.map Statement.words)

/-- The words behind a statement that some others follow. -/
def wordsBehind : List Statement → List (TokenKind × Text)
  | [] => []
  | next :: rest => semicolonWord :: programWords (next :: rest)

def programDeclares : List Statement → List Declaration
  | [] => []
  | s :: rest => s.declared (wordsBehind rest) :: programDeclares rest

/-! ### Types as they are read -/

/-- A dotted name is read as far as it goes. -/
theorem qualifiedName_dotted (name : Text) (parts : List Identifier) {tokens : List Token}
    (h : ∀ t ∈ tokens.head?, t.kind ≠ .dot .plain) :
    qualifiedName name ((Identifier.dottedWords parts).map Token.ofWord ++ tokens) =
      (name ++ Identifier.dotted parts, tokens) := by
  induction parts generalizing name with
  | nil =>
    rcases tokens with _ | ⟨t, _ | ⟨second, rest⟩⟩
    · simp [Identifier.dottedWords, Identifier.dotted, qualifiedName]
    · simp [Identifier.dottedWords, Identifier.dotted, qualifiedName]
    · have hdot : t.kind ≠ .dot .plain := h t rfl
      simp [Identifier.dottedWords, Identifier.dotted, qualifiedName, hdot]
  | cons n parts ih => simp [qualifiedName, ih]

theorem closeAngles_closed {opened : Int} {words : List (TokenKind × Text)} (hopen : 0 < opened)
    (h : closesAngles opened words = true) (tokens : List Token) :
    closeAngles opened (words.map Token.ofWord ++ tokens) = tokens := by
  induction words generalizing opened with
  | nil =>
    simp only [closesAngles, decide_eq_true_eq] at h
    omega
  | cons word rest ih =>
    simp only [closesAngles, Bool.and_eq_true] at h
    obtain ⟨-, hrest⟩ := h
    rw [List.map_cons, List.cons_append, closeAngles]
    split
    · rename_i hclosed
      -- closed here, so this word is the last
      cases rest with
      | nil => rfl
      | cons next rest =>
        simp only [closesAngles, Bool.and_eq_true, decide_eq_true_eq] at hrest
        omega
    · rename_i hstill
      exact ih (by omega) hrest

theorem TypeName.arrayWords_succ (arrays : Nat) :
    arrayWords (arrays + 1) = Bracket.square.left :: Bracket.square.right :: arrayWords arrays := by
  simp [arrayWords, List.replicate_succ]

theorem arrayType_arrays (type : Text) (arrays : Nat) {tokens : List Token}
    (h : ∀ t ∈ tokens.head?, t.kind ≠ .opening .square) :
    arrayType type ((TypeName.arrayWords arrays).map Token.ofWord ++ tokens) =
      (type ++ (List.replicate arrays ['[', ']']).flatten, tokens) := by
  induction arrays generalizing type with
  | zero =>
    rcases tokens with _ | ⟨t, _ | ⟨second, rest⟩⟩
    · simp [TypeName.arrayWords, arrayType]
    · simp [TypeName.arrayWords, arrayType]
    · have hsquare : t.kind ≠ .opening .square := h t rfl
      simp [TypeName.arrayWords, arrayType, hsquare]
  | succ arrays ih =>
    rw [TypeName.arrayWords_succ]
    simp only [List.map_cons, List.cons_append, arrayType, Token.ofWord_kind, Bracket.left,
      Bracket.right, and_self, if_true, ih]
    simp [List.replicate_succ]

namespace Identifier

/-- The last part of a dotted name. -/
theorem lastPart_dotted (first : Identifier) (more : List Identifier) :
    (first.text ++ dotted more).lastPart '.' = (more.getLast?.getD first).text := by
  induction more generalizing first with
  | nil => simpa [dotted] using Text.lastPart_of_not_mem first.dot_not_mem
  | cons n more ih =>
    rw [dotted_cons, Text.lastPart_append_mark, ih, List.getLast?_cons]
    rfl

end Identifier

namespace TypeName

/-- Generic arguments are dropped as far as they go. -/
theorem dropTypeArguments_words (type : TypeName) {tokens : List Token}
    (h : ∀ t ∈ tokens.head?, t.text ≠ ['<']) :
    dropTypeArguments (type.argumentWords.map Token.ofWord ++ tokens) = tokens := by
  unfold argumentWords
  cases type.arguments with
  | none =>
    cases tokens with
    | nil => rfl
    | cons t rest =>
      have hangle : t.text ≠ ['<'] := h t rfl
      simp [dropTypeArguments, hangle]
  | some arguments =>
    have hclosed := closeAngles_closed (by decide) arguments.closed tokens
    simpa [TypeArguments.words, dropTypeArguments, closeAngles, Token.angleChange] using hclosed

/-- Array brackets, or a name behind them, are no part of a path or of arguments. -/
theorem head_arrays (arrays : Nat) (name : Identifier) (rest : List Token) :
    ∀ t ∈ ((arrayWords arrays).map Token.ofWord ++ .ofWord name.word :: rest).head?,
      t.kind ≠ .dot .plain ∧ t.text ≠ ['<'] := by
  intro t ht
  cases arrays with
  | zero =>
    obtain rfl : Token.ofWord name.word = t := by simpa [arrayWords] using ht
    exact ⟨by simp [Identifier.word], name.text_ne (by decide)⟩
  | succ arrays =>
    obtain rfl : Token.ofWord Bracket.square.left = t := by
      simpa [arrayWords, List.replicate_succ] using ht
    simp [Bracket.left]

/-- A type is read from its words, in front of a name. -/
theorem typeReference_words (type : TypeName) (name : Identifier) (rest : List Token) :
    typeReference (type.words.map Token.ofWord ++ .ofWord name.word :: rest) =
      some (type.text, .ofWord name.word :: rest) := by
  let behind := (arrayWords type.arrays).map Token.ofWord ++ .ofWord name.word :: rest
  have hbehind := head_arrays type.arrays name rest
  have hpath : ∀ t ∈ (type.argumentWords.map Token.ofWord ++ behind).head?,
      t.kind ≠ .dot .plain := by
    intro t ht
    cases harguments : type.arguments with
    | none =>
      rw [argumentWords, harguments] at ht
      exact (hbehind t ht).1
    | some arguments =>
      obtain rfl : Token.ofWord (.operator, ['<']) = t := by
        simpa [argumentWords, harguments, TypeArguments.words] using ht
      simp
  have hdropped : dropTypeArguments (type.argumentWords.map Token.ofWord ++ behind) = behind :=
    type.dropTypeArguments_words fun t ht => (hbehind t ht).2
  have hname : ∀ t ∈ (Token.ofWord name.word :: rest).head?, t.kind ≠ .opening .square := by
    intro t ht
    obtain rfl : Token.ofWord name.word = t := by simpa using ht
    simp [Identifier.word]
  have hcapital : ((type.first.text ++ Identifier.dotted type.more).lastPart '.').head?.any
      isCapital = true := by
    rw [Identifier.lastPart_dotted]
    exact type.capital
  have hwords : type.words.map Token.ofWord ++ .ofWord name.word :: rest =
      .ofWord type.first.word :: ((Identifier.dottedWords type.more).map Token.ofWord ++
        (type.argumentWords.map Token.ofWord ++ behind)) := by
    simp [words, behind]
  have hfirst : (Token.ofWord type.first.word).text = type.first.text := rfl
  rw [hwords, typeReference, hfirst, qualifiedName_dotted _ _ hpath]
  simp only [hcapital, if_true, hdropped]
  rw [arrayType_arrays _ _ hname]
  rfl

end TypeName

/-! ### Declarations where they begin -/

theorem declarationAt_modifiers (modifiers : List Modifier) (tokens : List Token) :
    declarationAt ((modifierWords modifiers).map Token.ofWord ++ tokens) =
      declarationAt tokens := by
  induction modifiers with
  | nil => rfl
  | cons m modifiers ih =>
    rw [← ih]
    simp [modifierWords, declarationAt, Keyword.word, m.property]

/-- Behind its type a name is declared with it. -/
theorem WrittenType.declarationAt_words (written : WrittenType) (name : Identifier)
    (rest : List Token) :
    declarationAt (written.words.map Token.ofWord ++ .ofWord name.word :: rest) =
      namedDeclaration written.declared (.ofWord name.word :: rest) := by
  cases written with
  | any => rfl
  | primitive word hprimitive =>
    cases word <;> first | rfl | simp [Keyword.isPrimitiveType] at hprimitive
  | named type =>
    have htype := type.typeReference_words name rest
    have hfirst : (Token.ofWord type.first.word).kind = .name := rfl
    have hname : (Token.ofWord name.word).kind = .name := rfl
    simp only [TypeName.words, List.map_cons, List.cons_append] at htype
    simp only [words, TypeName.words, List.map_cons, List.cons_append, declarationAt,
      List.dropWhile_cons, hfirst, Bool.false_eq_true, if_false, htype, List.head?_cons,
      Option.any_some, hname, decide_true, if_true]
    rfl

theorem importGoesOn_semicolon (tokens : List Token) :
    importGoesOn (.ofWord semicolonWord) tokens = false := by
  unfold importGoesOn
  split <;> simp [semicolonWord, Token.isImportPart, Token.isOperator]

/-- The declaration of a name, with the value assigned to it if there is one. -/
theorem namedDeclaration_assigned (declared : Option Text) (name : Identifier)
    (value : Option Value) {behind : List (TokenKind × Text)}
    (hbehind : ∀ word ∈ behind.head?, word = semicolonWord) :
    namedDeclaration declared (.ofWord name.word :: (Value.assigned value ++ behind).map Token.ofWord) =
      some (.binding name.text (declared.or (value.bind fun v => v.evident behind))) := by
  have hname : (Token.ofWord name.word).kind = .name := rfl
  cases value with
  | none =>
    cases behind with
    | nil => rfl
    | cons word more =>
      obtain rfl : word = semicolonWord := hbehind word rfl
      rfl
  | some v =>
    have hassigned : assignedValue (.ofWord assignWord :: (v.words ++ behind).map Token.ofWord) =
        some ((v.words ++ behind).map Token.ofWord) := rfl
    have hplain : (Token.ofWord assignWord).kind ≠ .opening .paren := by simp [assignWord]
    simp only [namedDeclaration, Value.assigned, Option.map_some, Option.getD_some, List.map_cons,
      List.cons_append, hname, if_true, List.head?_cons, Option.any_some, hplain, decide_false,
      Bool.false_eq_true, if_false, hassigned, Option.bind_some]
    rfl

/-- Where a statement begins it is recognized. -/
theorem Statement.declarationAt_words (s : Statement) {behind : List (TokenKind × Text)}
    (hbehind : ∀ word ∈ behind.head?, word = semicolonWord) :
    declarationAt ((s.words ++ behind).map Token.ofWord) = some (s.declared behind) := by
  cases s with
  | importing isStatic clause =>
    let tokens := (ImportClause.staticWords isStatic ++
      (clause.pathWords ++ clause.asWords)).map Token.ofWord
    have hwords : tokens.map Token.word =
        ImportClause.staticWords isStatic ++ (clause.pathWords ++ clause.asWords) := by
      rw [List.map_map]
      exact List.map_id _
    have halone := clause.importDeclaration_words isStatic hwords
    have himport : importDeclaration (tokens ++ behind.map Token.ofWord) =
        some (.importing clause.text) := by
      cases behind with
      | nil => simpa using halone
      | cons word more =>
        obtain rfl : word = semicolonWord := hbehind word rfl
        rw [List.map_cons, importDeclaration_append (importGoesOn_semicolon tokens), halone]
    simpa [words, ImportClause.words, declarationAt, Keyword.isModifier, tokens, declared]
      using himport
  | type modifiers word htype name header body =>
    simp only [words, List.append_assoc, List.map_append, declarationAt_modifiers]
    cases word <;> first | rfl | simp [Keyword.declaresType] at htype
  | binding modifiers written name value =>
    rw [words, List.append_assoc, List.append_assoc, List.map_append, declarationAt_modifiers,
      List.map_append, List.cons_append, List.map_cons, written.declarationAt_words,
      namedDeclaration_assigned written.declared name value hbehind]
    rfl
  | assignment name value =>
    exact declarationAt_assigned name.text .start .start ((value.words ++ behind).map Token.ofWord)
  | method modifiers written name parameters body =>
    simp only [words, List.append_assoc, List.map_append, declarationAt_modifiers, List.map_cons,
      List.cons_append, written.declarationAt_words]
    rfl

/-! ### The walk over a statement -/

theorem Balanced.single {outer : TokenKind × Text → Bool} {word : TokenKind × Text}
    (hopens : word.1.opens = false) (hcloses : word.1.closes = false) (houter : outer word = true) :
    Balanced outer [word] := .word hopens hcloses houter .nil

theorem Balanced.enclosed {outer : TokenKind × Text → Bool} (e : Enclosed) (b : Bracket)
    (h : outer b.left = true) : Balanced outer (e.between b) := by
  cases b with
  | _ => exact .group rfl h rfl e.balanced .nil

theorem balanced_modifiers (modifiers : List Modifier) :
    Balanced withinStatement (modifierWords modifiers) := by
  apply Balanced.of_plain
  intro word hword
  obtain ⟨m, -, rfl⟩ := List.mem_map.mp hword
  simp [Keyword.word, TokenKind.opens, TokenKind.closes, withinStatement]

theorem TypeName.balanced_arrayWords (arrays : Nat) :
    Balanced withinStatement (arrayWords arrays) := by
  induction arrays with
  | zero => exact .nil
  | succ arrays ih => exact (Balanced.enclosed ⟨[], .nil⟩ .square rfl).append ih

theorem TypeName.balanced (type : TypeName) : Balanced withinStatement type.words := by
  have hparts : Balanced withinStatement (Identifier.dottedWords type.more) := by
    apply Balanced.of_plain
    intro word hword
    obtain ⟨n, -, hn⟩ := List.mem_flatMap.mp hword
    rcases List.mem_pair.mp hn with rfl | rfl
    · exact ⟨rfl, rfl, rfl⟩
    · exact ⟨rfl, rfl, rfl⟩
  have harguments : Balanced withinStatement type.argumentWords := by
    unfold argumentWords
    cases type.arguments with
    | none => exact .nil
    | some arguments => exact .word rfl rfl rfl arguments.balanced
  exact .word rfl rfl rfl (hparts.append (harguments.append (balanced_arrayWords type.arrays)))

theorem WrittenType.balanced (written : WrittenType) : Balanced withinStatement written.words := by
  cases written with
  | any => exact .single rfl rfl rfl
  | primitive word _ => exact .single rfl rfl rfl
  | named type => exact type.balanced

theorem Value.balanced_within (v : Value) : Balanced withinStatement v.words := by
  apply v.balanced.mono
  intro word hword
  simp only [withinValue, Bool.and_eq_true] at hword
  exact hword.1

theorem Value.balanced_assigned (value : Option Value) :
    Balanced withinStatement (Value.assigned value) := by
  cases value with
  | none => exact .nil
  | some v => exact .word rfl rfl rfl v.balanced_within

/-- Whether words begin as a statement does, with a name or a reserved word. -/
def BeginsStatement : List (TokenKind × Text) → Prop
  | [] => False
  | first :: _ => first.1 = .name ∨ ∃ k, first.1 = .keyword k

namespace BeginsStatement

variable {words : List (TokenKind × Text)}

theorem append (h : BeginsStatement words) (more : List (TokenKind × Text)) :
    BeginsStatement (words ++ more) := by
  cases words with
  | nil => exact h.elim
  | cons first rest => exact h

theorem modified (h : BeginsStatement words) (modifiers : List Modifier) :
    BeginsStatement (modifierWords modifiers ++ words) := by
  cases modifiers with
  | nil => exact h
  | cons m modifiers => exact .inr ⟨m.val, rfl⟩

theorem written (w : WrittenType) : BeginsStatement w.words := by
  cases w with
  | any => exact .inr ⟨_, rfl⟩
  | primitive word _ => exact .inr ⟨_, rfl⟩
  | named type => exact .inl rfl

end BeginsStatement

/-- `StatementParts words front block`: the words of a statement are balanced up to
    its body, if it has one. -/
structure StatementParts (words front block : List (TokenKind × Text)) : Prop where
  parts : words = front ++ block
  begins : BeginsStatement front
  balanced : Balanced withinStatement front
  body : block = [] ∨ ∃ body : Enclosed, block = body.between .brace

theorem Statement.words_parts (s : Statement) :
    ∃ front block, StatementParts s.words front block := by
  cases s with
  | importing isStatic clause =>
    refine ⟨clause.words isStatic, [], (List.append_nil _).symm, .inr ⟨_, rfl⟩, ?_, .inl rfl⟩
    apply Balanced.of_plain
    intro word hword
    rcases clause.words_kind isStatic hword with hkind | hkind | hkind | ⟨k, hkind⟩ <;>
      simp [hkind, TokenKind.opens, TokenKind.closes, withinStatement]
  | type modifiers word _ name header body =>
    have hheader : Balanced withinStatement header.words := by
      apply Balanced.of_plain
      intro word hword
      obtain ⟨hopens, hcloses, hsemicolon⟩ := header.plain word hword
      have hbrace : word.1 ≠ .opening .brace := by
        intro hbrace
        simp [hbrace, TokenKind.opens] at hopens
      exact ⟨hopens, hcloses, by simp [withinStatement, hsemicolon, hbrace]⟩
    have hnamed : Balanced withinStatement (word.word :: name.word :: header.words) :=
      .word rfl rfl rfl (.word rfl rfl rfl hheader)
    have hbegins : BeginsStatement (word.word :: name.word :: header.words) := .inr ⟨_, rfl⟩
    exact ⟨modifierWords modifiers ++ (word.word :: name.word :: header.words),
      body.between .brace, by simp [words], hbegins.modified modifiers,
      (balanced_modifiers modifiers).append hnamed, .inr ⟨body, rfl⟩⟩
  | binding modifiers written name value =>
    have hnamed : Balanced withinStatement (name.word :: Value.assigned value) :=
      .word rfl rfl rfl (Value.balanced_assigned value)
    exact ⟨_, [], (List.append_nil _).symm,
      ((BeginsStatement.written written).append _).modified modifiers,
      (balanced_modifiers modifiers).append (written.balanced.append hnamed), .inl rfl⟩
  | assignment name value =>
    have hvalue : Balanced withinStatement (assignWord :: value.words) :=
      .word rfl rfl rfl value.balanced_within
    exact ⟨_, [], (List.append_nil _).symm, .inl rfl, .word rfl rfl rfl hvalue, .inl rfl⟩
  | method modifiers written name parameters body =>
    have hnamed : Balanced withinStatement (name.word :: parameters.between .paren) :=
      .word rfl rfl rfl (.enclosed parameters .paren rfl)
    exact ⟨modifierWords modifiers ++ (written.words ++ name.word :: parameters.between .paren),
      body.between .brace, by simp [words],
      ((BeginsStatement.written written).append _).modified modifiers,
      (balanced_modifiers modifiers).append (written.balanced.append hnamed), .inr ⟨body, rfl⟩⟩

/-- Up to the block of a statement only its beginning declares something. -/
theorem wordsDeclare_front {front : List (TokenKind × Text)} (hbegins : BeginsStatement front)
    (hbalanced : Balanced withinStatement front) (behind : List (TokenKind × Text)) :
    wordsDeclare 0 true (front ++ behind) =
      (declarationAt ((front ++ behind).map Token.ofWord)).toList ++
        wordsDeclare 0 false behind := by
  cases hbalanced with
  | nil => exact hbegins.elim
  | word hopens hcloses hwithin hrest =>
    simp only [List.cons_append, wordsDeclare, depthAfter_plain hopens hcloses,
      endsStatement_within hcloses hwithin, wordsDeclare_within hrest, and_self, if_true]
  | group hleft =>
    rcases hbegins with hname | ⟨k, hkeyword⟩
    · simp [hleft] at hname
    · simp [hleft] at hkeyword

/-- The declaration where a statement begins is the only one in it. -/
theorem wordsDeclare_statement (s : Statement) (behind : List (TokenKind × Text)) :
    ∃ fresh, wordsDeclare 0 true (s.words ++ behind) =
      (declarationAt ((s.words ++ behind).map Token.ofWord)).toList ++
        wordsDeclare 0 fresh behind := by
  obtain ⟨front, block, hparts, hbegins, hbalanced, hbody⟩ := s.words_parts
  -- behind a body another statement may start, and then it is the semicolon
  have hblock : ∃ fresh, wordsDeclare 0 false (block ++ behind) = wordsDeclare 0 fresh behind := by
    rcases hbody with rfl | ⟨body, rfl⟩
    · exact ⟨false, rfl⟩
    · refine ⟨true, ?_⟩
      rw [Enclosed.between, List.cons_append, List.append_assoc]
      exact wordsDeclare_group rfl rfl body.balanced 0 false behind
  obtain ⟨fresh, hfresh⟩ := hblock
  refine ⟨fresh, ?_⟩
  rw [hparts, List.append_assoc, wordsDeclare_front hbegins hbalanced, hfresh]

/-! ### Programs -/

theorem programWords_cons (s : Statement) (rest : List Statement) :
    programWords (s :: rest) = s.words ++ wordsBehind rest := by
  cases rest with
  | nil => simp [programWords, wordsBehind]
  | cons next rest => simp [programWords, wordsBehind, List.intercalate_cons_cons]

theorem wordsBehind_head (program : List Statement) :
    ∀ word ∈ (wordsBehind program).head?, word = semicolonWord := by
  cases program with
  | nil => simp [wordsBehind]
  | cons next rest => simp [wordsBehind]

/-- Behind a statement the program goes on with a new one. -/
theorem wordsDeclare_behind (fresh : Bool) (program : List Statement) :
    wordsDeclare 0 fresh (wordsBehind program) = wordsDeclare 0 true (programWords program) := by
  cases program with
  | nil => rfl
  | cons next rest =>
    have hsemicolon : declarationAt
        (.ofWord semicolonWord :: (programWords (next :: rest)).map Token.ofWord) = none := rfl
    have hdepth : depthAfter 0 (.ofWord semicolonWord) = 0 := rfl
    have hends : endsStatement semicolonWord = true := rfl
    simp [wordsBehind, wordsDeclare, hsemicolon, hdepth, hends]

theorem wordsDeclare_program (program : List Statement) :
    wordsDeclare 0 true (programWords program) = programDeclares program := by
  induction program with
  | nil => rfl
  | cons s rest ih =>
    obtain ⟨fresh, hfresh⟩ := wordsDeclare_statement s (wordsBehind rest)
    rw [programWords_cons, hfresh, s.declarationAt_words (wordsBehind_head rest),
      wordsDeclare_behind, ih]
    rfl

/-! ### Values alone -/

theorem Balanced.head_outer {outer : TokenKind × Text → Bool} {word : TokenKind × Text}
    {rest : List (TokenKind × Text)} (h : Balanced outer (word :: rest)) : outer word = true := by
  cases h with
  | word _ _ houter _ => exact houter
  | group _ houter _ _ _ => exact houter

theorem Balanced.tail {outer : TokenKind × Text → Bool} {word : TokenKind × Text}
    {rest : List (TokenKind × Text)} (h : Balanced outer (word :: rest))
    (hopens : word.1.opens = false) : Balanced outer rest := by
  cases h with
  | word _ _ _ hrest => exact hrest
  | group hleft => simp [hleft, TokenKind.opens] at hopens

theorem text_ne_angle_of_withinValue {words : List (TokenKind × Text)}
    (h : Balanced withinValue words) :
    ∀ t ∈ (words.map Token.ofWord).head?, t.text ≠ ['<'] := by
  intro t ht
  cases words with
  | nil => simp at ht
  | cons word rest =>
    obtain rfl : Token.ofWord word = t := by simpa using ht
    have hwithin := h.head_outer
    simp only [withinValue, Bool.and_eq_true, decide_eq_true_eq] at hwithin
    exact hwithin.2

/-- Behind a dotted name in a value no generic arguments begin. -/
theorem qualifiedName_value (name : Text) {words : List (TokenKind × Text)}
    (h : Balanced withinValue words) :
    ∀ t ∈ (qualifiedName name (words.map Token.ofWord)).2.head?, t.text ≠ ['<'] := by
  have hhead := text_ne_angle_of_withinValue h
  generalize htokens : words.map Token.ofWord = tokens at hhead ⊢
  fun_induction qualifiedName name tokens generalizing words with
  | case1 name dot part rest hpair ih =>
    obtain ⟨first, others, rfl, rfl, hothers⟩ := List.map_eq_cons_iff.mp htokens
    obtain ⟨second, left, rfl, rfl, rfl⟩ := List.map_eq_cons_iff.mp hothers
    obtain ⟨hdot, hname⟩ : first.1 = .dot .plain ∧ second.1 = .name := hpair
    have hleft : Balanced withinValue left :=
      (h.tail (by simp [hdot, TokenKind.opens])).tail (by simp [hname, TokenKind.opens])
    exact ih hleft rfl (text_ne_angle_of_withinValue hleft)
  | case2 name dot part rest _ => exact hhead
  | case3 name tokens _ => exact hhead

theorem pairsGoOn_semicolon {left right : TokenKind} (hleft : left ≠ .semicolon)
    (hright : right ≠ .semicolon) (tokens : List Token) :
    pairsGoOn left right (.ofWord semicolonWord) tokens = false := by
  fun_induction pairsGoOn left right (.ofWord semicolonWord) tokens with
  | case1 => simp [semicolonWord, hleft.symm]
  | case2 first => simp [semicolonWord, hright.symm]
  | case3 first second rest ih => simp [ih]

/-- A semicolon ends the type at the head of a value. -/
theorem typeGoesOn_semicolon (first : TokenKind × Text) {rest : List (TokenKind × Text)}
    (h : Balanced withinValue rest) :
    typeGoesOn (.ofWord semicolonWord) ((first :: rest).map Token.ofWord) = false := by
  have harguments : typeArgumentsGoOn (.ofWord semicolonWord)
      (qualifiedName first.2 (rest.map Token.ofWord)).2 = false := by
    have hhead := qualifiedName_value first.2 h
    cases hbehind : (qualifiedName first.2 (rest.map Token.ofWord)).2 with
    | nil => simp [typeArgumentsGoOn, semicolonWord]
    | cons t others =>
      have hangle : t.text ≠ ['<'] := hhead t (by rw [hbehind]; rfl)
      simp [typeArgumentsGoOn, hangle]
  simp [typeGoesOn, pairsGoOn_semicolon, harguments]

/-- A statement that stands behind `new` is no type. -/
theorem typeReference_semicolon {words : List (TokenKind × Text)} (h : BeginsStatement words) :
    typeReference ((semicolonWord :: words).map Token.ofWord) = none := by
  have hdot : ∀ t ∈ (words.map Token.ofWord).head?, t.kind ≠ .dot .plain := by
    intro t ht
    cases words with
    | nil => exact h.elim
    | cons first rest =>
      obtain rfl : Token.ofWord first = t := by simpa using ht
      rcases h with hname | ⟨k, hkeyword⟩
      · simp [hname]
      · simp [hkeyword]
  have hname := qualifiedName_dotted [';'] [] hdot
  have hsmall : Text.lastPart '.' [';'] = [';'] := by decide
  have hcapital : isCapital ';' = false := by decide
  simp only [Identifier.dottedWords, Identifier.dotted, List.flatMap_nil, List.map_nil,
    List.nil_append, List.append_nil] at hname
  simp [typeReference, semicolonWord, hname, hsmall, hcapital]

/-- A semicolon ends what is looked at of a value, if it is not `new` alone. -/
theorem evidentTypeGoesOn_semicolon {v : Value} (h : v.looksAhead = false)
    (hnew : ∀ word, v.words = [word] → word.1 ≠ .keyword .kwNew) :
    evidentTypeGoesOn (.ofWord semicolonWord) (v.words.map Token.ofWord) = false := by
  obtain ⟨words, hnonempty, hbalanced⟩ := v
  simp only [Value.looksAhead] at h hnew
  cases hbalanced with
  | nil => exact absurd rfl hnonempty
  | @word _ first others hopens _ _ hothers =>
    obtain ⟨kind, text⟩ := first
    cases others with
    | nil =>
      have hkind := hnew _ rfl
      cases kind with
      | keyword k => cases k <;> first | rfl | exact absurd rfl hkind
      | opening b => simp [TokenKind.opens] at hopens
      | _ => rfl
    | cons second left =>
      cases kind with
      | keyword k =>
        by_cases hk : k = .kwNew
        · subst hk
          have hsecond : second.1.opens = false := by simpa using h
          exact typeGoesOn_semicolon second (hothers.tail hsecond)
        · cases k <;> first | rfl | exact absurd rfl hk
      | opening b => simp [TokenKind.opens] at hopens
      | _ => rfl
  | @group _ bracket left right inner rest hleft =>
    obtain ⟨kind, text⟩ := left
    obtain rfl : kind = .opening bracket := hleft
    cases bracket with
    | square =>
      rcases inner with _ | ⟨first, _ | ⟨second, inner⟩⟩
      · cases rest with
        | nil => simp [evidentTypeGoesOn, semicolonWord]
        | cons _ _ => rfl
      · rfl
      · rfl
    | _ => rfl

/-- The type of a value does not depend on the statements behind it. -/
theorem Value.evident_alone {v : Value} (h : v.looksAhead = false) (program : List Statement) :
    v.evident (wordsBehind program) = v.evident [] := by
  cases program with
  | nil => rfl
  | cons next rest =>
    by_cases hnew : ∃ word, v.words = [word] ∧ word.1 = .keyword .kwNew
    · obtain ⟨word, hwords, hword⟩ := hnew
      have hbegins : BeginsStatement (programWords (next :: rest)) := by
        obtain ⟨front, block, hparts, hfront, -, -⟩ := next.words_parts
        rw [programWords_cons, hparts]
        exact (hfront.append block).append _
      have hnone := typeReference_semicolon hbegins
      have hnothing : typeReference [] = none := rfl
      rw [List.map_cons] at hnone
      simp [evident, hwords, evidentType, hword, wordsBehind, hnone, hnothing]
    · have hends := evidentTypeGoesOn_semicolon h fun word hwords hword => hnew ⟨word, hwords, hword⟩
      rw [evident, evident, List.append_nil, wordsBehind, List.map_append, List.map_cons,
        evidentType_append hends]

theorem Statement.declared_alone {s : Statement} (h : ∀ v ∈ s.value, v.looksAhead = false)
    (program : List Statement) : s.declared (wordsBehind program) = s.declared [] := by
  cases s with
  | binding modifiers written name value =>
    cases value with
    | none => rfl
    | some v => simp [declared, Value.evident_alone (h v rfl) program]
  | assignment name value => simp [declared, Value.evident_alone (h value rfl) program]
  | _ => rfl

theorem programDeclares_alone {program : List Statement}
    (h : ∀ s ∈ program, ∀ v ∈ s.value, v.looksAhead = false) :
    programDeclares program = program.map (Statement.declared []) := by
  induction program with
  | nil => rfl
  | cons s rest ih =>
    have hs := Statement.declared_alone (h s List.mem_cons_self) rest
    have hrest := ih fun t ht => h t (List.mem_cons_of_mem s ht)
    rw [programDeclares, List.map_cons, hs, hrest]

/-! ### What a program declares -/

/-- **Every statement of a program declares just what it says.**  A text of one line
    that reads as the words of a program declares what its statements do, in order
    and nothing else; and each as it does alone, but for a value that looks ahead. -/
theorem declarations_program {program : List Statement} {source : Text} {tokens : List Token}
    (hline : '\n' ∉ source) (hread : tokensOf source = .ok tokens)
    (hwords : tokens.map Token.word = programWords program) :
    declarations source = programDeclares program ∧
      ((∀ s ∈ program, ∀ v ∈ s.value, v.looksAhead = false) →
        declarations source = program.map (Statement.declared [])) := by
  have hdeclared : declarations source = programDeclares program := by
    rw [declarations_words hline hread, hwords, wordsDeclare_program]
  exact ⟨hdeclared, fun halone => hdeclared.trans (programDeclares_alone halone)⟩

/-- An import, a variable with a type, a method and an assignment. -/
theorem declarations_program_four :
    declarations "import a.B; final List<Map<K, V>>[] m = [:]; def f(x) \x7b y = 1 \x7d; n = 2".toList =
      [.importing "a.B".toList, .binding "m".toList (some "List[]".toList), .method "f".toList,
        .binding "n".toList (some "Integer".toList)] := by
  let source := "import a.B; final List<Map<K, V>>[] m = [:]; def f(x) \x7b y = 1 \x7d; n = 2".toList
  let clause : ImportClause :=
    ⟨⟨"a".toList, by decide +kernel, by decide +kernel⟩,
      [⟨"B".toList, by decide +kernel, by decide +kernel⟩], false, none⟩
  let arguments : TypeArguments :=
    ⟨[(.name, "Map".toList), (.operator, ['<']), (.name, ['K']), (.comma, [',']), (.name, ['V']),
        (.operator, ['>', '>'])], by decide +kernel, .of_plain (by decide +kernel)⟩
  let list : TypeName :=
    ⟨⟨"List".toList, by decide +kernel, by decide +kernel⟩, [], by decide +kernel, some arguments, 1⟩
  let colon : Enclosed := ⟨[(.colon, [':'])], .single rfl rfl rfl⟩
  let empty : Value := ⟨colon.between .square, by simp [Enclosed.between], .enclosed colon .square rfl⟩
  let m : Identifier := ⟨['m'], by decide +kernel, by decide +kernel⟩
  let f : Identifier := ⟨['f'], by decide +kernel, by decide +kernel⟩
  let n : Identifier := ⟨['n'], by decide +kernel, by decide +kernel⟩
  let parameters : Enclosed := ⟨[(.name, ['x'])], .single rfl rfl rfl⟩
  let body : Enclosed :=
    ⟨[(.name, ['y']), assignWord, (.number, ['1'])], .of_plain (by decide +kernel)⟩
  let two : Value := ⟨[(.number, ['2'])], by simp, .single rfl rfl rfl⟩
  let program : List Statement :=
    [.importing false clause, .binding [⟨.kwFinal, rfl⟩] (.named list) m (some empty),
      .method [] .any f parameters body, .assignment n two]
  have hline : '\n' ∉ source := by decide +kernel
  have hlex : (lexAll source).ending = .ok ⟨.endOfInput, [], ⟨1, 71⟩⟩ ∧
      (lexAll source).tokens.map Token.word = programWords program := by decide +kernel
  have hread : tokensOf source = .ok (lexAll source).tokens :=
    tokensOf_eq_ok.mpr ⟨⟨_, hlex.1⟩, rfl⟩
  have hdeclared := (declarations_program hline hread hlex.2).1
  rw [hdeclared]
  decide +kernel

/-- A value that looks ahead: generic arguments that begin in its brackets end in the
    statement behind it. -/
example :
    declarations "x = new [.B < 1]".toList =
        [.binding "x".toList (some "[.B".toList)] ∧
      declarations "x = new [.B < 1]; y = a > []".toList =
        [.binding "x".toList (some "[.B[]".toList), .binding "y".toList none] := by
  decide +kernel

end GroovyShell
