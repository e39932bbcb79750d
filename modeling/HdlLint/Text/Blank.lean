/-!
# Blank characters and line ends

The blanks that surround a line (`isBlank`, `strip`) and the two ways in which text falls into
lines: `splitLines` cuts at every character that ends a line in Unicode, `sourceLines` only at
carriage returns and line feeds.
-/

namespace HdlLint.Text

/-- White space of any kind, the separators of ASCII among them. -/
def isBlank (c : Char) : Bool :=
  let n := c.toNat
  (9 ≤ n && n ≤ 13) || (28 ≤ n && n ≤ 32) || n == 0x85 || n == 0xa0 || n == 0x1680 ||
    (0x2000 ≤ n && n ≤ 0x200a) || n == 0x2028 || n == 0x2029 || n == 0x202f || n == 0x205f ||
    n == 0x3000

/-- The text without its leading blanks. -/
def stripLeft (s : List Char) : List Char :=
  s.dropWhile isBlank

/-- The text without its trailing blanks. -/
def stripRight (s : List Char) : List Char :=
  (s.reverse.dropWhile isBlank).reverse

/-- The text without the blanks around it. -/
def strip (s : List Char) : List Char :=
  stripRight (stripLeft s)

/-- The text without the blanks around it. -/
def stripString (s : String) : String :=
  String.ofList (strip s.toList)

/-! ## Lines -/

/-- A character that ends a line in Unicode text. -/
def isLineEnd (c : Char) : Bool :=
  let n := c.toNat
  (10 ≤ n && n ≤ 13) || (28 ≤ n && n ≤ 30) || n == 0x85 || n == 0x2028 || n == 0x2029

/-- A character that ends a line of source text. -/
def isSourceLineEnd (c : Char) : Bool :=
  c == '\n' || c == '\r'

/-- Puts one more character in front of the first line, which is opened where there is none. -/
def consFirst (c : Char) : List (List Char) → List (List Char)
  | [] => [[c]]
  | line :: lines => (c :: line) :: lines

/-- Cuts a text after each character of a class of line ends, a carriage return and the line feed
after it together; no line follows the last line end. The ends are not part of the lines. -/
def cutLines (ends : Char → Bool) : List Char → List (List Char)
  | [] => []
  | '\r' :: '\n' :: rest => if ends '\r' then [] :: cutLines ends rest else
      consFirst '\r' (consFirst '\n' (cutLines ends rest))
  | c :: rest => if ends c then [] :: cutLines ends rest else consFirst c (cutLines ends rest)

/-- The lines of a text, cut at every line end of Unicode. -/
def splitLines (s : List Char) : List (List Char) :=
  cutLines isLineEnd s

/-- The lines of source text, cut at `\n`, `\r\n` and lone `\r`. -/
def sourceLines (s : List Char) : List (List Char) :=
  cutLines isSourceLineEnd s

end HdlLint.Text
