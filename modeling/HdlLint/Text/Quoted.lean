import HdlLint.Text.Printable

/-!
# Quoted text

How a text is shown inside a message: between single quotes, or double quotes where it holds
single quotes and no double ones, with escapes for backslashes, the chosen quote and characters
that cannot be printed.
-/

namespace HdlLint.Text

/-- The last `width` hexadecimal digits of a number. -/
def hexDigits : (width : Nat) → Nat → List Char
  | 0, _ => []
  | width + 1, n => hexDigits width (n / 16) ++ [Nat.digitChar (n % 16)]

/-- One character between the given quotes. -/
def quoteChar (quote c : Char) : List Char :=
  if c = quote || c = '\\' then ['\\', c]
  else if c = '\n' then ['\\', 'n']
  else if c = '\t' then ['\\', 't']
  else if c = '\r' then ['\\', 'r']
  else if isPrintable c then [c]
  else if c.toNat < 0x100 then '\\' :: 'x' :: hexDigits 2 c.toNat
  else if c.toNat < 0x10000 then '\\' :: 'u' :: hexDigits 4 c.toNat
  else '\\' :: 'U' :: hexDigits 8 c.toNat

/-- The quote for a text: single, unless the text holds single quotes and no double ones. -/
def quoteFor (s : List Char) : Char :=
  if s.contains '\'' && !s.contains '"' then '"' else '\''

/-- A text between quotes. -/
def quote (s : String) : String :=
  let q := quoteFor s.toList
  String.ofList ([q] ++ s.toList.flatMap (quoteChar q) ++ [q])

end HdlLint.Text
