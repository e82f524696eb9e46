/-
  GroovyShell/Text/CharClass.lean
  ===============================
  **Which characters are blank, which are letters, which may be in a name.**

  Every decision the shell takes about a single character is taken here.  The
  ASCII half of each class is arithmetic, so a proof about an ordinary program
  never opens a table; the tables are consulted from `U+0080` on only.
-/
import GroovyShell.Text.Alphabetic
import GroovyShell.Text.Numeric
import GroovyShell.Text.Uppercase

namespace GroovyShell

/-- Whether a character lies in one of the closed ranges. -/
def inRanges (ranges : List (Nat × Nat)) (c : Char) : Bool :=
  ranges.any fun r => r.1 ≤ c.toNat && c.toNat ≤ r.2

/-- White space: the 25 characters with the Unicode property of that name. -/
def isBlank (c : Char) : Bool :=
  inRanges
    [ (0x09, 0x0D), (0x20, 0x20), (0x85, 0x85), (0xA0, 0xA0), (0x1680, 0x1680),
      (0x2000, 0x200A), (0x2028, 0x2029), (0x202F, 0x202F), (0x205F, 0x205F), (0x3000, 0x3000) ] c

/-- A letter of some script. -/
def isLetter (c : Char) : Bool :=
  if c.toNat < 0x80 then c.isAlpha else inRanges alphabeticRanges c

/-- A digit, letter number or other number of some script. -/
def isNumeral (c : Char) : Bool :=
  if c.toNat < 0x80 then c.isDigit else inRanges numericRanges c

/-- An upper case letter of some script. -/
def isCapital (c : Char) : Bool :=
  if c.toNat < 0x80 then c.isUpper else inRanges uppercaseRanges c

def isHexDigit (c : Char) : Bool :=
  c.isDigit || ('a' ≤ c && c ≤ 'f') || ('A' ≤ c && c ≤ 'F')

def startsName (c : Char) : Bool :=
  isLetter c || c == '_' || c == '$'

/-- A character that can stand inside a name after its first one. -/
def continuesName (c : Char) : Bool :=
  isLetter c || isNumeral c || c == '_' || c == '$'

end GroovyShell
