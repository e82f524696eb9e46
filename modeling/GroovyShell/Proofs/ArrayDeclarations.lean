/-
  GroovyShell/Proofs/ArrayDeclarations.lean
  =========================================
  **Variables that are declared as arrays.**

  The element type of an array is a primitive type or a dotted name whose last part
  is capitalized, and any number of brackets may stand behind it.  A named type is
  read together with its brackets.  A primitive type is a reserved word, behind which
  the name is expected at once: with brackets between the two nothing is declared.
-/
import GroovyShell.Proofs.StatementGrammar

namespace GroovyShell

/-- The type of an array's elements. -/
inductive ElementType where
  | primitive (word : Keyword) (isPrimitive : word.isPrimitiveType = true)
  | named (first : Identifier) (more : List Identifier)
      (capital : (more.getLast?.getD first).text.head?.any isCapital = true)

namespace ElementType

def isPrimitive : ElementType → Bool
  | .primitive _ _ => true
  | .named _ _ _ => false

def text : ElementType → Text
  | .primitive word _ => word.spelling.toList
  | .named first more _ => first.text ++ Identifier.dotted more

def words : ElementType → List (TokenKind × Text)
  | .primitive word _ => [word.word]
  | .named first more _ => first.word :: Identifier.dottedWords more

/-- The type of an array with so many dimensions. -/
def arrayText (e : ElementType) (dimensions : Nat) : Text :=
  e.text ++ (List.replicate dimensions ['[', ']']).flatten

def arrayWords (e : ElementType) (dimensions : Nat) : List (TokenKind × Text) :=
  e.words ++ TypeName.arrayWords dimensions

end ElementType

/-- The words of a value that is assigned, if one is. -/
def assignedWords (value : Option (List (TokenKind × Text))) : List (TokenKind × Text) :=
  (value.map fun words => assignWord :: words).getD []

variable {value : Option (List (TokenKind × Text))}

/-! ### What is declared -/

/-- Behind a type a name is a variable, whatever is assigned to it. -/
theorem namedDeclaration_typed (type : Text) (name : Identifier)
    (value : Option (List (TokenKind × Text))) :
    namedDeclaration (some type) ((name.word :: assignedWords value).map Token.ofWord) =
      some (.binding name.text (some type)) := by
  cases value <;> rfl

theorem balanced_assignedWords (hvalue : ∀ words ∈ value, Balanced withinStatement words) :
    Balanced withinStatement (assignedWords value) := by
  cases value with
  | none => exact .nil
  | some words => exact .word rfl rfl rfl (hvalue words rfl)

/-- Where brackets stand no name is declared. -/
theorem namedDeclaration_arrayWords (type : Text) (dimensions : Nat) (tokens : List Token) :
    namedDeclaration (some type)
      ((TypeName.arrayWords (dimensions + 1)).map Token.ofWord ++ tokens) = none := by
  have hbracket : (Token.ofWord Bracket.square.left).kind ≠ .name := by simp [Bracket.left]
  rw [TypeName.arrayWords_succ, List.map_cons, List.cons_append, namedDeclaration, if_neg hbracket]

namespace ElementType

/-- A named type is read with its brackets, a primitive one without them. -/
theorem declarationAt_words (e : ElementType) (dimensions : Nat) (name : Identifier)
    (value : Option (List (TokenKind × Text))) :
    declarationAt ((e.arrayWords dimensions ++ name.word :: assignedWords value).map
        Token.ofWord) =
      if e.isPrimitive = true ∧ 0 < dimensions then none
      else some (.binding name.text (some (e.arrayText dimensions))) := by
  have hnamed := fun type => namedDeclaration_typed type name value
  cases e with
  | named first more capital =>
    let type : TypeName := ⟨first, more, capital, none, dimensions⟩
    have hwords : (named first more capital).arrayWords dimensions = type.words := by
      simp [arrayWords, words, TypeName.words, TypeName.argumentWords, type]
    have htype := (WrittenType.named type).declarationAt_words name
      ((assignedWords value).map Token.ofWord)
    rw [hwords, List.map_append, List.map_cons]
    rw [List.map_cons] at hnamed
    exact htype.trans (hnamed type.text)
  | primitive word hprimitive =>
    let behind := (TypeName.arrayWords dimensions ++ name.word :: assignedWords value).map
      Token.ofWord
    have hword : declarationAt (.ofWord word.word :: behind) =
        namedDeclaration (some word.spelling.toList) behind := by
      cases word <;> simp only [Keyword.isPrimitiveType, Bool.false_eq_true] at hprimitive <;> rfl
    have hstart : declarationAt (((primitive word hprimitive).arrayWords dimensions ++
        name.word :: assignedWords value).map Token.ofWord) =
          namedDeclaration (some word.spelling.toList) behind := hword
    rw [hstart]
    cases dimensions with
    | zero => simpa [behind, TypeName.arrayWords, arrayText, text] using hnamed _
    | succ dimensions =>
      rw [if_pos ⟨rfl, Nat.succ_pos _⟩]
      simp only [behind, List.map_append, namedDeclaration_arrayWords]

theorem balanced (e : ElementType) (dimensions : Nat) :
    Balanced withinStatement (e.arrayWords dimensions) := by
  cases e with
  | primitive word _ =>
    exact .word rfl rfl rfl (TypeName.balanced_arrayWords dimensions)
  | named first more capital =>
    have htype := TypeName.balanced ⟨first, more, capital, none, dimensions⟩
    simpa [arrayWords, words, TypeName.words, TypeName.argumentWords] using htype

theorem begins (e : ElementType) (dimensions : Nat) :
    BeginsStatement (e.arrayWords dimensions) := by
  cases e with
  | primitive word _ => exact .inr ⟨_, rfl⟩
  | named first more capital => exact .inl rfl

end ElementType

/-! ### How the declaration is read -/

section Spelling

variable {last nesting : List Interpolation} {t : Text} {words : List (TokenKind × Text)}

theorem Spelled.emptyBrackets (h : Spelled last nesting t words) :
    Spelled last nesting ('[' :: ']' :: t)
      (Bracket.square.left :: Bracket.square.right :: words) := by
  have hleft : ∀ t, itemAt nesting ('[' :: t) = .token (.opening .square) 1 nesting := fun _ => rfl
  have hright : ∀ t, itemAt nesting (']' :: t) = .token (.closing .square) 1 nesting := fun _ => rfl
  have hsecond : Spelled last nesting ([']'] ++ t) (Bracket.square.right :: words) :=
    .token (by simp) (not_beginsGap_of_ne (by decide) (by decide) _) (hright _) h
  have hfirst : Spelled last nesting (['['] ++ ']' :: t)
      (Bracket.square.left :: Bracket.square.right :: words) :=
    .token (by simp) (not_beginsGap_of_ne (by decide) (by decide) _) (hleft _) hsecond
  exact hfirst

theorem Spelled.dimensions (dimensions : Nat) (h : Spelled last nesting t words) :
    Spelled last nesting ((List.replicate dimensions ['[', ']']).flatten ++ t)
      (TypeName.arrayWords dimensions ++ words) := by
  induction dimensions with
  | zero => exact h
  | succ dimensions ih =>
    rw [TypeName.arrayWords_succ, List.replicate_succ]
    exact ih.emptyBrackets

/-- An element type is read in front of anything that ends a name. -/
theorem ElementType.spelled (e : ElementType) (hend : ∀ c ∈ t.head?, continuesName c = false)
    (h : Spelled last nesting t words) : Spelled last nesting (e.text ++ t) (e.words ++ words) := by
  cases e with
  | named first more capital =>
    obtain ⟨hmore, hhead⟩ := Identifier.spelled_dotted more hend h
    simpa [text, ElementType.words, Identifier.word] using first.spelled hhead hmore
  | primitive word hprimitive =>
    have hplain : isPlainName word.spelling.toList = true ∧
        wordKind word.spelling.toList = .keyword word := by
      cases word <;> simp only [Keyword.isPrimitiveType, Bool.false_eq_true] at hprimitive <;>
        decide +kernel
    have hword := h.plainName hplain.1 hend
    rwa [hplain.2] at hword

end Spelling

/-- A declaration without a value, written with one blank. -/
theorem ElementType.tokensOf_array (e : ElementType) (dimensions : Nat) (name : Identifier) :
    ∃ tokens, tokensOf (e.arrayText dimensions ++ ' ' :: name.text) = .ok tokens ∧
      tokens.map Token.word = e.arrayWords dimensions ++ name.word :: assignedWords none := by
  have hname : Spelled [] [] (' ' :: name.text) [name.word] := by
    have hplain := name.spelled (by simp) (Spelled.finished : Spelled [] [] [] [])
    rw [List.append_nil] at hplain
    exact .blank (by decide) hplain
  have hend : ∀ c ∈ ((List.replicate dimensions ['[', ']']).flatten ++ ' ' :: name.text).head?,
      continuesName c = false := by
    intro c hc
    cases dimensions with
    | zero =>
      obtain rfl : ' ' = c := by simpa using hc
      decide
    | succ dimensions =>
      obtain rfl : '[' = c := by simpa [List.replicate_succ] using hc
      decide
  have hspelled := e.spelled hend (hname.dimensions dimensions)
  rw [arrayText, arrayWords, List.append_assoc, List.append_assoc]
  exact Lexer.tokensOf_of_spelled hspelled

/-- **Arrays of a named type are declared, arrays of a primitive type are not.**  A
    text of one line that reads as a type, brackets and a name, with or without a value
    of balanced brackets, declares the name with the type and its brackets and nothing
    else; but with brackets behind a primitive type it declares nothing at all. -/
theorem array_declaration (e : ElementType) (dimensions : Nat) (name : Identifier)
    (hvalue : ∀ words ∈ value, Balanced withinStatement words) {source : Text}
    {tokens : List Token} (hline : '\n' ∉ source) (hread : tokensOf source = .ok tokens)
    (hwords : tokens.map Token.word =
      e.arrayWords dimensions ++ name.word :: assignedWords value) :
    declarations source =
      if e.isPrimitive = true ∧ 0 < dimensions then []
      else [.binding name.text (some (e.arrayText dimensions))] := by
  have hnamed : Balanced withinStatement (name.word :: assignedWords value) :=
    .word rfl rfl rfl (balanced_assignedWords hvalue)
  have hone := wordsDeclare_front ((e.begins dimensions).append _)
    ((e.balanced dimensions).append hnamed) []
  simp only [List.append_nil, wordsDeclare, e.declarationAt_words] at hone
  rw [declarations_words hline hread, hwords, hone]
  split <;> rfl

/-- An array of arrays of a named type with a value, and one of integers without. -/
theorem array_declaration_dotted :
    declarations "java.util.List[][] x = f([1; 2])".toList =
        [.binding "x".toList (some "java.util.List[][]".toList)] ∧
      declarations "int[] x".toList = [] := by
  let source := "java.util.List[][] x = f([1; 2])".toList
  let list : ElementType :=
    .named ⟨"java".toList, by decide +kernel, by decide +kernel⟩
      [⟨"util".toList, by decide +kernel, by decide +kernel⟩,
        ⟨"List".toList, by decide +kernel, by decide +kernel⟩] (by decide +kernel)
  let x : Identifier := ⟨"x".toList, by decide +kernel, by decide +kernel⟩
  let inner : Enclosed :=
    ⟨[(.number, ['1']), semicolonWord, (.number, ['2'])], .of_plain (by decide +kernel)⟩
  let arguments : Enclosed := ⟨inner.between .square, .enclosed inner .square rfl⟩
  have hvalue : Balanced withinStatement ((.name, ['f']) :: arguments.between .paren) :=
    .word rfl rfl rfl (.enclosed arguments .paren rfl)
  have hline : '\n' ∉ source := by decide +kernel
  have hlex : (lexAll source).ending = .ok ⟨.endOfInput, [], ⟨1, 33⟩⟩ ∧
      (lexAll source).tokens.map Token.word = list.arrayWords 2 ++
        x.word :: assignedWords (some ((.name, ['f']) :: arguments.between .paren)) := by
    decide +kernel
  have hread : tokensOf source = .ok (lexAll source).tokens :=
    tokensOf_eq_ok.mpr ⟨⟨_, hlex.1⟩, rfl⟩
  have hdeclared := array_declaration list 2 x (by simpa using hvalue) hline hread hlex.2
  obtain ⟨tokens, hint, hwords⟩ := (ElementType.primitive .kwInt rfl).tokensOf_array 1 x
  have hnothing := array_declaration (.primitive .kwInt rfl) 1 x (by simp) (by decide +kernel) hint
    hwords
  exact ⟨hdeclared.trans (by decide +kernel), hnothing⟩

end GroovyShell
