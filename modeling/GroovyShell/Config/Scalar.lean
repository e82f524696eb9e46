/-
  GroovyShell/Config/Scalar.lean
  ==============================
  **Strings, numbers and dates of a TOML document.**
-/
import GroovyShell.Config.Value

namespace GroovyShell

/-! ### Strings -/

/-- Whether a character may not stand in a document as it is. -/
def isForbidden (c : Char) : Bool := (c.toNat < 0x20 && c != '\t') || c.toNat == 0x7F

def hexDigitValue (c : Char) : Nat :=
  if c.isDigit then c.toNat - '0'.toNat
  else if c.isUpper then c.toNat - 'A'.toNat + 10
  else c.toNat - 'a'.toNat + 10

def hexNumber (digits : Text) : Nat := digits.foldl (fun n c => 16 * n + hexDigitValue c) 0

/-- The character whose number is given by exactly `width` hexadecimal digits at
    the head of a text. -/
def hexCharacter (width : Nat) (t : Text) : Option Char :=
  let digits := t.take width
  if digits.length = width ∧ digits.all isHexDigit then
    let n := hexNumber digits
    if n.isValidChar then some (Char.ofNat n) else none
  else none

/-- The character an escape stands for, with the length of the escape behind its
    backslash. -/
def escaped : Text → Option (Char × Nat)
  | 'b' :: _ => some ('\x08', 1)
  | 't' :: _ => some ('\t', 1)
  | 'n' :: _ => some ('\n', 1)
  | 'f' :: _ => some ('\x0c', 1)
  | 'r' :: _ => some ('\r', 1)
  | 'e' :: _ => some ('\x1b', 1)
  | '"' :: _ => some ('"', 1)
  | '\\' :: _ => some ('\\', 1)
  | 'x' :: t => (hexCharacter 2 t).map fun c => (c, 3)
  | 'u' :: t => (hexCharacter 4 t).map fun c => (c, 5)
  | 'U' :: t => (hexCharacter 8 t).map fun c => (c, 9)
  | _ => none

def dropLineBreak : Text → Option Text
  | '\n' :: t => some t
  | '\r' :: '\n' :: t => some t
  | _ => none

def isSpace (c : Char) : Bool := c == ' ' || c == '\t'

/-- The text behind white space and line breaks. -/
def dropSpace : Nat → Text → Text
  | 0, t => t
  | fuel + 1, t =>
    let t := t.dropWhile isSpace
    match dropLineBreak t with
    | some t => dropSpace fuel t
    | none => t

/-- The content of a one-line string, whose opening quote has been read, and the
    text behind the string. -/
def lineString (quote : Char) : Nat → Text → Text → Option (Text × Text)
  | 0, _, _ => none
  | _, _, [] => none
  | fuel + 1, read, c :: t =>
    if c = quote then some (read.reverse, t)
    else if c = '\\' ∧ quote = '"' then
      match escaped t with
      | some (e, length) => lineString quote fuel (e :: read) (t.drop length)
      | none => none
    else if isForbidden c then none
    else lineString quote fuel (c :: read) t

/-- The content of a string over several lines, whose opening quotes have been
    read, and the text behind the string.  Up to two quotes may stand directly
    before the closing ones.  A backslash at the end of a line takes the line
    break and the white space behind it away. -/
def blockString (quote : Char) : Nat → Text → Text → Option (Text × Text)
  | 0, _, _ => none
  | _, _, [] => none
  | fuel + 1, read, c :: t =>
    let quotes := Text.run (· == quote) (c :: t)
    if 3 ≤ quotes then
      let inner := min (quotes - 3) 2
      some (read.reverse ++ List.replicate inner quote, (c :: t).drop (inner + 3))
    else if c = '\\' ∧ quote = '"' then
      match dropLineBreak (t.dropWhile isSpace) with
      | some t => blockString quote fuel read (dropSpace t.length t)
      | none =>
        match escaped t with
        | some (e, length) => blockString quote fuel (e :: read) (t.drop length)
        | none => none
    else
      match dropLineBreak (c :: t) with
      | some t' =>
        blockString quote fuel (if c = '\r' then '\n' :: '\r' :: read else '\n' :: read) t'
      | none => if isForbidden c then none else blockString quote fuel (c :: read) t

/-- The string at the head of a text, and the text behind it. -/
def readString : Text → Option (Text × Text)
  | [] => none
  | quote :: t =>
    if quote = '"' ∨ quote = '\'' then
      match t with
      | a :: b :: t =>
        if a = quote ∧ b = quote then
          let t := (dropLineBreak t).getD t
          blockString quote (t.length + 1) [] t
        else lineString quote (t.length + 3) [] (a :: b :: t)
      | t => lineString quote (t.length + 1) [] t
    else none

/-! ### Numbers -/

/-- The digits of a number in which single underscores may stand between two
    digits. -/
def plainDigits (isDigit : Char → Bool) : Text → Option Text
  | [] => none
  | [c] => if isDigit c then some [c] else none
  | c :: '_' :: d :: t =>
    if isDigit c then (plainDigits isDigit (d :: t)).map (c :: ·) else none
  | c :: t => if isDigit c then (plainDigits isDigit t).map (c :: ·) else none

def numberIn (base : Nat) (digits : Text) : Nat :=
  digits.foldl (fun n c => base * n + hexDigitValue c) 0

/-- A number without its sign, and whether the sign was a minus. -/
def dropSign : Text → Bool × Text
  | '-' :: t => (true, t)
  | '+' :: t => (false, t)
  | t => (false, t)

/-- Digits that do not begin with a needless zero. -/
def decimalDigits (t : Text) : Option Text :=
  (plainDigits Char.isDigit t).filter fun d => d.length = 1 || d.head? != some '0'

def readInteger : Text → Option Int
  | '0' :: 'x' :: t => (plainDigits isHexDigit t).map fun d => (numberIn 16 d : Int)
  | '0' :: 'o' :: t =>
    (plainDigits (fun c => '0' ≤ c && c ≤ '7') t).map fun d => (numberIn 8 d : Int)
  | '0' :: 'b' :: t =>
    (plainDigits (fun c => c == '0' || c == '1') t).map fun d => (numberIn 2 d : Int)
  | t =>
    let (negative, t) := dropSign t
    (decimalDigits t).map fun d =>
      if negative then -(numberIn 10 d : Int) else (numberIn 10 d : Int)

/-- Whether a number, given by the digits before and behind its point and by its
    exponent, is too large for a double precision number. -/
def isTooLarge (whole fraction : Text) (exponent : Int) : Bool :=
  let digits := (whole ++ fraction).dropWhile (· == '0')
  let shift := exponent - fraction.length
  let magnitude := shift + digits.length
  if digits.isEmpty ∨ magnitude < 300 then false
  else if magnitude > 320 then true
  else
    let limit := Nat.pow 2 1024 - Nat.pow 2 970
    if 0 ≤ shift then limit ≤ numberIn 10 digits * Nat.pow 10 shift.toNat
    else limit * Nat.pow 10 (-shift).toNat ≤ numberIn 10 digits

/-- The exponent a word is, its `e` having been read. -/
def readExponent (t : Text) : Option Int :=
  let (negative, t) := dropSign t
  (plainDigits Char.isDigit t).map fun d =>
    if negative then -(numberIn 10 d : Int) else (numberIn 10 d : Int)

/-- Whether the number with a fraction or exponent that a word is, is too large. -/
def readFloat (t : Text) : Option Bool :=
  let t := (dropSign t).2
  if t = "inf".toList ∨ t = "nan".toList then some false
  else
    let (mantissa, exponent) :=
      match t.cut fun c => c == 'e' || c == 'E' with
      | some (mantissa, e) => (mantissa, some e)
      | none => (t, none)
    let exponentValue := match exponent with
      | some e => readExponent e
      | none => some 0
    match mantissa.cut (· == '.'), exponent with
    | some (whole, fraction), _ =>
      match decimalDigits whole, plainDigits Char.isDigit fraction, exponentValue with
      | some w, some f, some e => some (isTooLarge w f e)
      | _, _, _ => none
    | none, some _ =>
      match decimalDigits mantissa, exponentValue with
      | some w, some e => some (isTooLarge w [] e)
      | _, _ => none
    | none, none => none

/-! ### Dates and times -/

/-- The number that exactly `width` digits at the head of a text stand for, and
    the text behind them. -/
def fixedNumber (width : Nat) (t : Text) : Option (Nat × Text) :=
  let digits := t.take width
  if digits.length = width ∧ digits.all Char.isDigit then some (numberIn 10 digits, t.drop width)
  else none

def dropChar (c : Char) : Text → Option Text
  | d :: t => if d = c then some t else none
  | [] => none

def daysIn (year month : Nat) : Nat :=
  if month = 2 then
    if year % 4 = 0 ∧ (year % 100 ≠ 0 ∨ year % 400 = 0) then 29 else 28
  else if month ∈ [4, 6, 9, 11] then 30
  else 31

def dropDate (t : Text) : Option Text := do
  let (year, t) ← fixedNumber 4 t
  let t ← dropChar '-' t
  let (month, t) ← fixedNumber 2 t
  let t ← dropChar '-' t
  let (day, t) ← fixedNumber 2 t
  if 1 ≤ month ∧ month ≤ 12 ∧ 1 ≤ day ∧ day ≤ daysIn year month then some t else none

/-- The text behind the fraction of a second, if one stands at the head of a text. -/
def dropFraction : Text → Option Text
  | '.' :: t =>
    let digits := Text.run Char.isDigit t
    if digits = 0 then none else some (t.drop digits)
  | t => some t

/-- The text behind the seconds, if they stand at the head of a text. -/
def dropSeconds : Text → Option Text
  | ':' :: t =>
    match fixedNumber 2 t with
    | some (second, t) => if second ≤ 60 then dropFraction t else none
    | none => none
  | t => some t

def dropMinutes (t : Text) : Option Text := do
  let (hour, t) ← fixedNumber 2 t
  let t ← dropChar ':' t
  let (minute, t) ← fixedNumber 2 t
  if hour ≤ 23 ∧ minute ≤ 59 then some t else none

def dropTime (t : Text) : Option Text := (dropMinutes t).bind dropSeconds

/-- Whether a text is nothing or the difference to universal time. -/
def isZone : Text → Bool
  | [] => true
  | ['Z'] | ['z'] => true
  | c :: t => (c == '+' || c == '-') && dropMinutes t == some []

def isDatetime (t : Text) : Bool :=
  match dropDate t with
  | some [] => true
  | some (c :: t) =>
    (c == 'T' || c == 't' || c == ' ') &&
      (match dropTime t with
        | some t => isZone t
        | none => false)
  | none => dropTime t == some []

/-! ### Words -/

/-- Whether a character can stand in a value that is no string or bracket. -/
def isWordChar (c : Char) : Bool := c.isAlphanum || c ∈ ['_', '+', '-', '.', ':']

/-- Length of the word at the head of a text.  A date and a time may be separated
    by a space. -/
def wordLength (t : Text) : Nat :=
  let length := t.run isWordChar
  if dropDate (t.take length) = some [] then
    match t.drop length with
    | ' ' :: d :: rest => if d.isDigit then length + 1 + Text.run isWordChar (d :: rest) else length
    | _ => length
  else length

def readWord (word : Text) : Option TomlValue :=
  if word = "true".toList then some (.boolean true)
  else if word = "false".toList then some (.boolean false)
  else
    match readInteger word, readFloat word with
    | some n, _ => some (.integer n)
    | none, some tooLarge => some (.float tooLarge)
    | none, none => if isDatetime word then some .datetime else none

end GroovyShell
