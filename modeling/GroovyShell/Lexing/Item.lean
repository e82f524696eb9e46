/-
  GroovyShell/Lexing/Item.lean
  ============================
  **The token at the beginning of a text.**

  Each function here looks at the head of a text and says what stands there and
  how long it is; none of them moves through the text.  Since a token is then
  the head of that length, its text is exact whatever it is made of.

  Interpolated strings are the one thing a single look cannot settle.  At `${`
  the string is left, code follows, and at the `}` that closes the interpolation
  the string goes on.  The stack of open interpolations carries what is needed
  for that: the delimiter of each string, and how many braces are open in its
  code.
-/
import GroovyShell.Lexing.Token

namespace GroovyShell

/-! ### Marks, numbers and names -/

/-- Operators, the longer ones first, so that the first that fits is the longest. -/
def operators : List String :=
  [ ">>>", "<=>", "==~", "..<", "**=", "<<=", ">>=", "===", "!==",
    "==", "!=", "<=", ">=", "&&", "||", "++", "--", "+=", "-=", "*=", "/=", "%=", "&=", "|=",
    "^=", "->", "<<", ">>", "=~", "**", "?:", "..", ".&", ".@", "::",
    "=", "+", "-", "*", "/", "%", "<", ">", "!", "&", "|", "^", "~", "?", "@" ]

def operatorItem (t : Text) : Option (TokenKind × Nat) :=
  (operators.find? fun op => t.beginsWith op.toList).map fun op =>
    (.operator, op.toList.length)

/-- A member access at the head of a text.  A dot that begins `..`, `.&` or `.@`
    belongs to an operator. -/
def dotItem : Text → Option (TokenKind × Nat)
  | '?' :: '.' :: _ => some (.dot .safe, 2)
  | '*' :: '.' :: _ => some (.dot .spread, 2)
  | '.' :: '.' :: _ => none
  | '.' :: '&' :: _ => none
  | '.' :: '@' :: _ => none
  | '.' :: _ => some (.dot .plain, 1)
  | _ => none

def markItem : Text → Option (TokenKind × Nat)
  | '(' :: _ => some (.opening .paren, 1)
  | ')' :: _ => some (.closing .paren, 1)
  | '[' :: _ => some (.opening .square, 1)
  | ']' :: _ => some (.closing .square, 1)
  | ',' :: _ => some (.comma, 1)
  | ';' :: _ => some (.semicolon, 1)
  | ':' :: ':' :: _ => none
  | ':' :: _ => some (.colon, 1)
  | _ => none

def isDigitPart (c : Char) : Bool := c.isDigit || c == '_'

/-- Length of the fraction at the head of a text, if a fraction stands there. -/
def fractionLength : Text → Nat
  | '.' :: d :: t => if d.isDigit then 1 + Text.run isDigitPart (d :: t) else 0
  | _ => 0

/-- Length of the exponent at the head of a text, if an exponent stands there. -/
def exponentLength : Text → Nat
  | e :: t =>
    if e == 'e' || e == 'E' then
      match t with
      | s :: d :: t =>
        if s == '+' || s == '-' then
          if d.isDigit then 2 + Text.run isDigitPart (d :: t) else 0
        else if s.isDigit then 1 + Text.run isDigitPart (s :: d :: t) else 0
      | [d] => if d.isDigit then 2 else 0
      | [] => 0
    else 0
  | [] => 0

def suffixLength : Text → Nat
  | c :: _ => if c ∈ ['g', 'G', 'l', 'L', 'i', 'I', 'd', 'D', 'f', 'F'] then 1 else 0
  | [] => 0

/-- Length of the decimal digits of a number after its first one, with fraction
    and exponent. -/
def decimalTailLength (t : Text) : Nat :=
  let whole := t.run isDigitPart
  let fraction := fractionLength (t.drop whole)
  whole + fraction + exponentLength (t.drop (whole + fraction))

/-- Length of a number after its first digit, which is `d`. -/
def numberTailLength (d : Char) (t : Text) : Nat :=
  let digits :=
    match t with
    | x :: t =>
      if d = '0' ∧ (x = 'x' ∨ x = 'X') then 1 + Text.run (fun c => isHexDigit c || c == '_') t
      else decimalTailLength (x :: t)
    | [] => 0
  digits + suffixLength (t.drop digits)

def numberItem : Text → Option (TokenKind × Nat)
  | d :: t => if d.isDigit then some (.number, 1 + numberTailLength d t) else none
  | [] => none

def wordKind (word : Text) : TokenKind :=
  match Keyword.lookup word with
  | some k => .keyword k
  | none => .name

def wordItem : Text → Option (TokenKind × Nat)
  | c :: t =>
    if startsName c then
      let word := c :: t.takeWhile continuesName
      some (wordKind word, word.length)
    else none
  | [] => none

/-- Any token at the head of a text that is neither a brace nor part of a string. -/
def plainItem (t : Text) : Option (TokenKind × Nat) :=
  dotItem t <|> markItem t <|> numberItem t <|> wordItem t <|> operatorItem t

/-! ### Strings -/

/-- How a string is delimited. -/
structure StringStyle where
  quote : Char
  triple : Bool
deriving DecidableEq, Repr

/-- What closes a string of this style; the same opens it. -/
def StringStyle.delimiter (style : StringStyle) : Text :=
  List.replicate (if style.triple then 3 else 1) style.quote

/-- How the part of a string that is read in one go ends: with its delimiter,
    with `${`, or not at all.  Each says how many characters were read. -/
inductive StringPart where
  | closed (length : Nat)
  | interpolated (length : Nat)
  | unterminated (length : Nat)
deriving DecidableEq, Repr

def StringPart.length : StringPart → Nat
  | .closed n | .interpolated n | .unterminated n => n

/-- Whether `${` stands at the head of a text and means an interpolation in a
    string of this style. -/
def StringStyle.interpolatesAt (style : StringStyle) (t : Text) : Bool :=
  style.quote == '"' && t.beginsWith ['$', '\x7b']

/-- Read a string on, `read` of its characters having been read.  A backslash
    takes the next character with it, whatever that is. -/
def StringStyle.partFrom (style : StringStyle) (read : Nat) : Text → StringPart
  | [] => .unterminated read
  | ['\\'] => .unterminated (read + 1)
  | '\\' :: _ :: t => style.partFrom (read + 2) t
  | c :: t =>
    if c = '\n' ∧ ¬ style.triple then .unterminated read
    else if style.interpolatesAt (c :: t) then .interpolated (read + 2)
    else if Text.beginsWith (c :: t) style.delimiter then
      .closed (read + style.delimiter.length)
    else style.partFrom (read + 1) t

/-- The style of the string whose opening quote is `quote` and is followed by
    `t`. -/
def StringStyle.at (quote : Char) (t : Text) : StringStyle :=
  ⟨quote, t.beginsWith [quote, quote]⟩

/-! ### Items -/

/-- An open `${`: whether the string around it is delimited by three quotes, and
    how many braces are open in its code. -/
structure Interpolation where
  triple : Bool
  depth : Nat
deriving DecidableEq, Repr

/-- What stands at the head of a text: a token of some length, a string of which
    so much was read without finding its end, or nothing that begins a token.
    The first two say which interpolations are open afterwards, innermost first. -/
inductive Item where
  | token (kind : TokenKind) (length : Nat) (nesting : List Interpolation)
  | unterminated (length : Nat) (nesting : List Interpolation)
  | unexpected (c : Char)
deriving DecidableEq, Repr

/-- The item for a string or for the part of a string behind an interpolation,
    `whole` and `cut` being the kinds of the part when it ends with the
    delimiter and when it ends with `${`. -/
def stringItem (whole cut : TokenKind) (triple : Bool) (nesting : List Interpolation) :
    StringPart → Item
  | .closed length => .token whole length nesting
  | .interpolated length => .token cut length (⟨triple, 0⟩ :: nesting)
  | .unterminated length => .unterminated length nesting

def quotedItem (nesting : List Interpolation) (quote : Char) (t : Text) : Item :=
  let style := StringStyle.at quote t
  let width := style.delimiter.length
  stringItem .string .stringStart style.triple nesting
    (style.partFrom width (t.drop (width - 1)))

def openBraceItem : List Interpolation → Item
  | [] => .token (.opening .brace) 1 []
  | ⟨triple, depth⟩ :: outer => .token (.opening .brace) 1 (⟨triple, depth + 1⟩ :: outer)

/-- The item at the head of a text that begins with a closing brace, `t` being
    what follows it.  The brace that closes an interpolation resumes its string. -/
def closeBraceItem (t : Text) : List Interpolation → Item
  | [] => .token (.closing .brace) 1 []
  | ⟨triple, 0⟩ :: outer =>
    stringItem .stringEnd .stringMiddle triple outer
      ((⟨'"', triple⟩ : StringStyle).partFrom 1 t)
  | ⟨triple, depth + 1⟩ :: outer => .token (.closing .brace) 1 (⟨triple, depth⟩ :: outer)

/-- The item at the head of a text, given the interpolations that are open. -/
def itemAt (nesting : List Interpolation) : Text → Item
  | [] => .token .endOfInput 0 nesting
  | c :: t =>
    if c = '\x7b' then openBraceItem nesting
    else if c = '\x7d' then closeBraceItem t nesting
    else if c = '\'' ∨ c = '"' then quotedItem nesting c t
    else
      match plainItem (c :: t) with
      | some (kind, length) => .token kind length nesting
      | none => .unexpected c

/-! ### Every step makes progress -/

theorem operatorItem_pos {t : Text} {kind : TokenKind} {n : Nat}
    (h : operatorItem t = some (kind, n)) : 0 < n := by
  unfold operatorItem at h
  cases hf : operators.find? fun op => t.beginsWith op.toList with
  | none => simp [hf] at h
  | some op =>
    have nonempty : ∀ op ∈ operators, 0 < op.toList.length := by decide
    have := nonempty op (List.mem_of_find?_eq_some hf)
    simp [hf] at h
    omega

theorem dotItem_pos {t : Text} {kind : TokenKind} {n : Nat}
    (h : dotItem t = some (kind, n)) : 0 < n := by
  unfold dotItem at h
  split at h <;> simp at h <;> omega

theorem markItem_pos {t : Text} {kind : TokenKind} {n : Nat}
    (h : markItem t = some (kind, n)) : 0 < n := by
  unfold markItem at h
  split at h <;> simp at h <;> omega

theorem numberItem_pos {t : Text} {kind : TokenKind} {n : Nat}
    (h : numberItem t = some (kind, n)) : 0 < n := by
  unfold numberItem at h
  split at h
  · split at h <;> simp at h; omega
  · simp at h

theorem wordItem_pos {t : Text} {kind : TokenKind} {n : Nat}
    (h : wordItem t = some (kind, n)) : 0 < n := by
  unfold wordItem at h
  split at h
  · split at h <;> simp at h; omega
  · simp at h

theorem plainItem_pos {t : Text} {kind : TokenKind} {n : Nat}
    (h : plainItem t = some (kind, n)) : 0 < n := by
  unfold plainItem at h
  simp only [Option.orElse_eq_orElse, Option.orElse_eq_or, Option.or_eq_some_iff] at h
  rcases h with h | ⟨_, h | ⟨_, h | ⟨_, h | ⟨_, h⟩⟩⟩⟩
  · exact dotItem_pos h
  · exact markItem_pos h
  · exact numberItem_pos h
  · exact wordItem_pos h
  · exact operatorItem_pos h

theorem partFrom_ge (style : StringStyle) (read : Nat) (t : Text) :
    read ≤ (style.partFrom read t).length := by
  fun_induction StringStyle.partFrom style read t <;> simp_all [StringPart.length] <;> omega

theorem stringItem_pos {whole cut kind : TokenKind} {triple : Bool}
    {nesting after : List Interpolation} {style : StringStyle} {read n : Nat} {t : Text}
    (h : stringItem whole cut triple nesting (style.partFrom read t) = .token kind n after)
    (started : 0 < read) : 0 < n := by
  have ge := partFrom_ge style read t
  unfold stringItem at h
  split at h <;> simp_all [StringPart.length] <;> omega

theorem itemAt_token {nesting after : List Interpolation} {t : Text} {kind : TokenKind} {n : Nat}
    (h : itemAt nesting t = .token kind n after) (inside : kind ≠ .endOfInput) :
    0 < n ∧ 0 < t.length := by
  cases t with
  | nil => simp [itemAt] at h; simp_all
  | cons c t =>
    refine ⟨?_, by simp⟩
    simp only [itemAt] at h
    split at h
    · unfold openBraceItem at h
      split at h <;> simp at h <;> omega
    · split at h
      · unfold closeBraceItem at h
        split at h
        · simp at h; omega
        · exact stringItem_pos h (by decide)
        · simp at h; omega
      · split at h
        · exact stringItem_pos h (by simp [StringStyle.delimiter]; split <;> decide)
        · split at h
          · rename_i hp
            simp only [Item.token.injEq] at h
            obtain ⟨rfl, rfl, rfl⟩ := h
            exact plainItem_pos hp
          · simp at h

end GroovyShell
