import HdlLint.Text.Split
import HdlLint.Verilog.Lexeme
import HdlLint.Verilog.NumberBase

/-!
# Reading lexemes

`Lexer.lexemes` cuts a source text into lexemes, the last of which is the end of the file. It
reads every text: what is no lexeme of the language becomes an unknown one with a fault.

A `Scan` is a place in a text with the characters from there on. Places count bytes; a line ends
with a line feed, a carriage return, or both in either order.
-/

namespace HdlLint.Verilog

/-- A place in a text and the characters from there on. -/
structure Scan where
  rest : List Char
  offset : Nat
  line : Nat
  column : Nat

namespace Scan

/-- The scan of a whole text. -/
def ofText (text : List Char) : Scan :=
  ⟨text, 0, 1, 1⟩

/-- Whether a character ends a line. -/
def endsLine (c : Char) : Bool :=
  c == '\n' || c == '\r'

/-- The scan behind one character. -/
def skip (s : Scan) : Scan :=
  match s.rest with
  | [] => s
  | c :: rest =>
    let pair := match rest with
      | d :: _ => endsLine c && endsLine d && c != d
      | [] => false
    if endsLine c && !pair then ⟨rest, s.offset + c.utf8Size, s.line + 1, 1⟩
    else ⟨rest, s.offset + c.utf8Size, s.line, s.column + c.utf8Size⟩

/-- The scan behind a number of characters. -/
def skipMany (s : Scan) : Nat → Scan
  | 0 => s
  | n + 1 => s.skip.skipMany n

/-- The place of a scan in a file. -/
def place (s : Scan) (included : Option String) : Location :=
  .text included s.offset s.line s.column

end Scan

namespace Lexer

/-- A letter or the underscore. -/
def isNameStart (c : Char) : Bool :=
  c.isAlpha || c == '_'

/-- A character within a name. -/
def isNamePart (c : Char) : Bool :=
  c.isAlphanum || c == '_' || c == '$'

/-- A blank within a line. -/
def isLineBlank (c : Char) : Bool :=
  c == ' ' || c == '\t' || c == '\x0b' || c == '\x0c'

/-- A character of an escaped name. -/
def isEscapedPart (c : Char) : Bool :=
  0x20 < c.toNat && c.toNat < 0x7f

/-- A digit of a decimal number, or the underscore between digits. -/
def isDigitPart (c : Char) : Bool :=
  c.isDigit || c == '_'

/-! ## Trivia -/

/-- How many characters a block comment has, counted from behind its opening, and whether it is
closed. -/
def commentLength : List Char → Nat × Bool
  | '*' :: '/' :: _ => (2, true)
  | _ :: rest => let (n, closed) := commentLength rest; (n + 1, closed)
  | [] => (0, false)

/-- The piece of trivia at the front of a text: its class, its length and whether it is
complete. -/
def trivia? : List Char → Option (TriviaKind × Nat × Bool)
  | '\r' :: '\n' :: _ => some (.lineEnd, 2, true)
  | '\r' :: _ => some (.lineEnd, 1, true)
  | '\n' :: _ => some (.lineEnd, 1, true)
  | '/' :: '/' :: rest => some (.lineComment, 2 + (rest.takeWhile (!Scan.endsLine ·)).length, true)
  | '/' :: '*' :: rest =>
    let (n, closed) := commentLength rest
    some (.blockComment, 2 + n, closed)
  | c :: rest =>
    if isLineBlank c then some (.blank, 1 + (rest.takeWhile isLineBlank).length, true) else none
  | [] => none

/-- Reads trivia: the pieces, the places of faults, and the scan behind them. At most `count`
pieces are read. -/
def readTrivia (included : Option String) : (count : Nat) → Scan →
    List Trivia × List Location × Scan
  | 0, s => ([], [], s)
  | count + 1, s =>
    match trivia? s.rest with
    | none => ([], [], s)
    | some (kind, n, complete) =>
      let s' := s.skipMany n
      let (pieces, faults, s'') := readTrivia included count s'
      (.text kind (String.ofList (s.rest.take n)) :: pieces,
        if complete then faults else s'.place included :: faults, s'')

/-! ## Words -/

/-- What stands at the front of a text: a class, a length, the value and the distances of
faults. -/
structure Word where
  cls : LexemeClass
  length : Nat
  value : List Char
  faults : List Nat := []

/-- The length of a string behind its opening quote, and whether it is closed. A backslash takes
the character after it along, a line end too. -/
def stringLength : List Char → Nat × Bool
  | '"' :: _ => (1, true)
  | '\\' :: '\r' :: '\n' :: rest => let (n, closed) := stringLength rest; (n + 3, closed)
  | '\\' :: _ :: rest => let (n, closed) := stringLength rest; (n + 2, closed)
  | '\\' :: [] => (1, false)
  | c :: rest =>
    if Scan.endsLine c then (0, false)
    else let (n, closed) := stringLength rest; (n + 1, closed)
  | [] => (0, false)

/-- Whether a backslash in a string names no character, by the text behind it: a hexadecimal code
needs a digit, an octal one is below 256. -/
def isBadEscape : List Char → Bool
  | 'x' :: rest => !(rest.head?.map (NumberBase.isKnownDigit .hexadecimal)).getD false
  | a :: b :: c :: _ =>
    '4' ≤ a && [a, b, c].all (NumberBase.isKnownDigit .octal)
  | _ => false

/-- The distances of the bad escapes in a string, counted on from the given one. -/
def badEscapes (distance : Nat) : List Char → List Nat
  | '\\' :: c :: rest =>
    if isBadEscape (c :: rest) then distance :: badEscapes (distance + 2) rest
    else badEscapes (distance + 2) rest
  | _ :: rest => badEscapes (distance + 1) rest
  | [] => []

/-- The length of an exponent at the front of a text. -/
def exponentLength : List Char → Nat
  | e :: rest =>
    if e == 'e' || e == 'E' then
      match rest with
      | sign :: d :: more =>
        if (sign == '+' || sign == '-') && d.isDigit then 3 + (more.takeWhile isDigitPart).length
        else if sign.isDigit then 1 + (rest.takeWhile isDigitPart).length
        else 0
      | [d] => if d.isDigit then 2 else 0
      | [] => 0
    else 0
  | [] => 0

/-- The length of a unit of time at the front of a text. -/
def timeUnitLength : List Char → Nat
  | 's' :: rest => if (rest.head?.map isNamePart).getD false then 0 else 1
  | c :: 's' :: rest =>
    if ['m', 'u', 'n', 'p', 'f'].contains c && !(rest.head?.map isNamePart).getD false then 2
    else 0
  | _ => 0

/-- The fraction at the front of a text: its length, and whether its digits are missing. -/
def fraction : List Char → Nat × Bool
  | '.' :: rest =>
    let digits := (rest.takeWhile isDigitPart).length
    (1 + digits, !(rest.head?.map Char.isDigit).getD false)
  | _ => (0, false)

/-- The number at the front of a text that starts with a digit. -/
def number (text : List Char) : Word :=
  if "1step".toList.isPrefixOf text then ⟨.time, 5, "1step".toList, []⟩
  else
    let whole := (text.takeWhile isDigitPart).length
    let (fractional, incomplete) := fraction (text.drop whole)
    let exponent := exponentLength (text.drop (whole + fractional))
    let n := whole + fractional + exponent
    let unit := timeUnitLength (text.drop n)
    let cls :=
      if unit ≠ 0 then .time else if fractional + exponent ≠ 0 then .real else .integer
    ⟨cls, n + unit, text.take (n + unit), if incomplete then [whole + 1] else []⟩

/-- A letter that names the base of a number. -/
def isBaseLetter (c : Char) : Bool :=
  ['d', 'D', 'b', 'B', 'o', 'O', 'h', 'H'].contains c

/-- The literal that starts with an apostrophe, if the text behind the apostrophe makes one. -/
def apostrophe? : List Char → Option Word
  | s :: b :: _ =>
    if (s == 's' || s == 'S') && isBaseLetter b then some ⟨.base, 3, [s, b], []⟩
    else apostropheOne? s
  | [s] => apostropheOne? s
  | [] => none
where
  /-- The literal of an apostrophe and one character. -/
  apostropheOne? (c : Char) : Option Word :=
    if isBaseLetter c then some ⟨.base, 2, [c], []⟩
    else if ['0', '1', 'x', 'X', 'z', 'Z', '?'].contains c then some ⟨.unsized, 2, [c], []⟩
    else none

/-- The lexeme that starts with a backtick, by the text behind it. -/
def backtick : List Char → Word
  | '"' :: _ => ⟨.macroQuote, 2, [], []⟩
  | '\x60' :: _ => ⟨.macroPaste, 2, [], []⟩
  | '\\' :: '\x60' :: '"' :: _ => ⟨.macroEscapedQuote, 4, [], []⟩
  | '\\' :: rest =>
    match rest.takeWhile isEscapedPart with
    | [] => ⟨.unknown, 1, [], [0]⟩
    | name => ⟨.directive, 2 + name.length, name, []⟩
  | rest =>
    match rest.takeWhile isNamePart with
    | [] => ⟨.unknown, 1, [], [0]⟩
    | name => ⟨.directive, 1 + name.length, name, []⟩

/-- The lexeme that starts with a backslash, by the text behind it. -/
def backslash : List Char → Word
  | '\r' :: '\n' :: _ => ⟨.lineContinuation, 3, [], []⟩
  | '\r' :: _ => ⟨.lineContinuation, 2, [], []⟩
  | '\n' :: _ => ⟨.lineContinuation, 2, [], []⟩
  | rest =>
    match rest.takeWhile isEscapedPart with
    | [] => ⟨.unknown, 1, [], [1]⟩
    | name => ⟨.identifier, 1 + name.length, name, []⟩

/-- The symbol at the front of a text. -/
def symbol? (text : List Char) : Option Word :=
  (symbols.find? fun s => (Text.afterStart? s.toList text).isSome).map fun s =>
    ⟨.symbol, s.length, s.toList, []⟩

/-- The lexeme at the front of a text. -/
def word : List Char → Word
  | [] => ⟨.endOfFile, 0, [], []⟩
  | c :: rest =>
    if isNameStart c then
      let name := c :: rest.takeWhile isNamePart
      ⟨if keywords.contains (String.ofList name) then .keyword else .identifier,
        name.length, name, []⟩
    else if c.isDigit then number (c :: rest)
    else if c == '"' then
      let (n, closed) := stringLength rest
      let text := rest.take (if closed then n - 1 else n)
      ⟨.string, 1 + n, text, badEscapes 1 text ++ if closed then [] else [1 + n]⟩
    else if c == '\x60' then backtick rest
    else if c == '\\' then backslash rest
    else if c == '$' && (rest.head?.map isNamePart).getD false then
      let name := rest.takeWhile isNamePart
      ⟨.systemName, 1 + name.length, c :: name, []⟩
    else
      match if c == '\'' then apostrophe? rest else none with
      | some w => w
      | none => (symbol? (c :: rest)).getD ⟨.unknown, 1, [], [0]⟩

/-- Reads one lexeme with the trivia in front of it. -/
def lexeme (included : Option String) (s : Scan) : Lexeme × Scan :=
  let (trivia, faults, s') := readTrivia included (s.rest.length + 1) s
  let w := word s'.rest
  let s'' := s'.skipMany w.length
  (⟨w.cls, String.ofList (s'.rest.take w.length), String.ofList w.value, s'.place included,
    s''.place included, trivia,
    faults ++ w.faults.map fun n => (s'.skipMany n).place included⟩, s'')

/-- Reads up to `count` lexemes, the last of which is the end of the file. -/
def readLexemes (included : Option String) : (count : Nat) → Scan → List Lexeme
  | 0, s => [(lexeme included { s with rest := [] }).1]
  | count + 1, s =>
    let (l, s') := lexeme included s
    if l.cls = .endOfFile then [l] else l :: readLexemes included count s'

/-- A mark at the front of a file that tells its encoding is no part of the text. -/
def skipByteOrderMark (s : Scan) : Scan :=
  match s.rest with
  | '\ufeff' :: _ => s.skip
  | _ => s

/-- The lexemes of a text. Places in an included file carry the given name. -/
def lexemes (included : Option String) (text : List Char) : List Lexeme :=
  readLexemes included (text.length + 1) (skipByteOrderMark (Scan.ofText text))

end Lexer

end HdlLint.Verilog
