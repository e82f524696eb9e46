/-
  GroovyShell/Lexing/Literal.lean
  ===============================
  **What a literal is an instance of.**
-/
import GroovyShell.Text.Basic

namespace GroovyShell

/-- The type of a number literal.  A fraction or exponent makes it a decimal,
    unless the number is hexadecimal, where `e` is a digit. -/
def numberType (literal : Text) : String :=
  let lower : Text := literal.map Char.toLower
  if !lower.beginsWith ['0', 'x'] && (lower.contains '.' || lower.contains 'e') then "BigDecimal"
  else "Integer"

end GroovyShell
