/-!
# Texts of TOML documents

The characters of a document and its quoted texts: basic ones, whose backslash starts an escape,
and literal ones; either on one line or over several. `Toml.writeText` writes a basic text,
`Toml.writeKey` a key.
-/

namespace HdlLint.Toml

/-! ## Characters -/

/-- A blank within a line. -/
def isBlank (c : Char) : Bool :=
  c = ' ' || c = '\t'

/-- A blank or the end of a line. -/
def isSpace (c : Char) : Bool :=
  isBlank c || c = '\n'

/-- A control character other than a tab. None stands in a comment or in a text of one line. -/
def isRefused (c : Char) : Bool :=
  (c.toNat < 0x20 || c = '\x7f') && c ≠ '\t'

/-- A hexadecimal digit. -/
def isHexDigit (c : Char) : Bool :=
  c.isDigit || ('a' ≤ c && c ≤ 'f') || ('A' ≤ c && c ≤ 'F')

/-- The value of a digit, in any base up to sixteen. -/
def digitValue (c : Char) : Nat :=
  if c.isDigit then c.toNat - 0x30
  else if 'a' ≤ c && c ≤ 'f' then c.toNat - 0x57
  else c.toNat - 0x37

/-- The number that digits make in a base. -/
def ofDigits (base : Nat) (digits : List Char) : Nat :=
  digits.foldl (fun n c => n * base + digitValue c) 0

/-- The digit of a value below sixteen. -/
def hexDigit (n : Nat) : Char :=
  if n < 10 then Char.ofNat (0x30 + n) else Char.ofNat (0x57 + n)

/-! ## Escapes -/

/-- The character that a hexadecimal number stands for. -/
def scalar? (digits : List Char) : Option Char :=
  let n := ofDigits 16 digits
  if digits.all isHexDigit && n.isValidChar then some (Char.ofNat n) else none

/-- What an escape stands for, by the character behind the backslash and the text behind that. The
number says how many characters of this text belong to the escape. -/
def escaped? (c : Char) (rest : List Char) : Option (Char × Nat) :=
  let coded (count : Nat) : Option (Char × Nat) :=
    if rest.length < count then none else (scalar? (rest.take count)).map (·, count)
  match c with
  | 'b' => some ('\x08', 0)
  | 't' => some ('\t', 0)
  | 'n' => some ('\n', 0)
  | 'f' => some ('\x0c', 0)
  | 'r' => some ('\r', 0)
  | '"' => some ('"', 0)
  | '\\' => some ('\\', 0)
  | 'u' => coded 4
  | 'U' => coded 8
  | _ => none

/-- The text behind a backslash that ends its line: the blanks, the line end, and all blanks and
line ends that follow. -/
def afterLineEnd? (cs : List Char) : Option (List Char) :=
  match cs.dropWhile isBlank with
  | '\n' :: rest => some (rest.dropWhile isSpace)
  | _ => none

theorem length_dropWhile_le (p : Char → Bool) (cs : List Char) :
    (cs.dropWhile p).length ≤ cs.length := by
  have h := congrArg List.length (List.takeWhile_append_dropWhile (p := p) (l := cs))
  simp only [List.length_append] at h
  omega

theorem length_of_afterLineEnd? {cs rest : List Char} (h : afterLineEnd? cs = some rest) :
    rest.length < cs.length := by
  unfold afterLineEnd? at h
  split at h
  · rename_i r hr
    have h₁ := length_dropWhile_le isBlank cs
    have h₂ := length_dropWhile_le isSpace r
    rw [hr, List.length_cons] at h₁
    obtain rfl := Option.some.inj h
    omega
  · exact absurd h (by simp)

/-! ## Quoted texts -/

/-- Puts a character in front of a text that was read. -/
def before (c : Char) (r : Option (List Char × List Char)) : Option (List Char × List Char) :=
  r.map fun (text, rest) => (c :: text, rest)

/-- The rest of a basic text on one line, behind its first quote, and what follows it. -/
def basicText : List Char → Option (List Char × List Char)
  | [] => none
  | '"' :: rest => some ([], rest)
  | '\\' :: [] => none
  | '\\' :: c :: rest =>
    match escaped? c rest with
    | some (d, count) => before d (basicText (rest.drop count))
    | none => none
  | c :: rest => if isRefused c then none else before c (basicText rest)
termination_by cs => cs.length
decreasing_by all_goals simp only [List.length_cons, List.length_drop]; omega

/-- The rest of a basic text over several lines, behind its quotes, and what follows it. -/
def basicLines : List Char → Option (List Char × List Char)
  | [] => none
  | '"' :: '"' :: '"' :: rest => some ([], rest)
  | '\\' :: [] => none
  | '\\' :: c :: rest =>
    if isSpace c then
      match h : afterLineEnd? (c :: rest) with
      | some rest' =>
        have := length_of_afterLineEnd? h
        basicLines rest'
      | none => none
    else
      match escaped? c rest with
      | some (d, count) => before d (basicLines (rest.drop count))
      | none => none
  | c :: rest => if isRefused c && c ≠ '\n' then none else before c (basicLines rest)
termination_by cs => cs.length
decreasing_by
  all_goals simp only [List.length_cons, List.length_drop] at *; omega

/-- The rest of a literal text on one line. -/
def literalText : List Char → Option (List Char × List Char)
  | [] => none
  | '\'' :: rest => some ([], rest)
  | c :: rest => if isRefused c then none else before c (literalText rest)

/-- The rest of a literal text over several lines. -/
def literalLines : List Char → Option (List Char × List Char)
  | [] => none
  | '\'' :: '\'' :: '\'' :: rest => some ([], rest)
  | c :: rest => if isRefused c && c ≠ '\n' then none else before c (literalLines rest)

/-- Up to two quotes in front of the closing ones of a text over several lines belong to it: they
are found behind the first three. -/
def withLastQuotes (quote : Char) : List Char × List Char → List Char × List Char
  | (text, rest) =>
    let extra := (rest.take 2).takeWhile (· = quote)
    (text ++ extra, rest.drop extra.length)

/-- A line end behind the first quotes of a text over several lines is no part of it. -/
def withoutFirstLineEnd : List Char → List Char
  | '\n' :: rest => rest
  | cs => cs

/-- A quoted text on one line, and what follows it. -/
def quotedText : List Char → Option (List Char × List Char)
  | '"' :: rest => basicText rest
  | '\'' :: rest => literalText rest
  | _ => none

/-- A quoted text on one line or over several, and what follows it. -/
def anyText : List Char → Option (List Char × List Char)
  | '"' :: '"' :: '"' :: rest =>
    (basicLines (withoutFirstLineEnd rest)).map (withLastQuotes '"')
  | '\'' :: '\'' :: '\'' :: rest =>
    (literalLines (withoutFirstLineEnd rest)).map (withLastQuotes '\'')
  | cs => quotedText cs

/-! ## Writing -/

/-- A character within a basic text. -/
def writeChar : Char → List Char
  | '\x08' => ['\\', 'b']
  | '\n' => ['\\', 'n']
  | '\x0c' => ['\\', 'f']
  | '\r' => ['\\', 'r']
  | '"' => ['\\', '"']
  | '\\' => ['\\', '\\']
  | c =>
    if isRefused c then ['\\', 'u', '0', '0', hexDigit (c.toNat / 16), hexDigit (c.toNat % 16)]
    else [c]

/-- A text as a basic text on one line. -/
def writeText (s : String) : List Char :=
  '"' :: s.toList.flatMap writeChar ++ ['"']

/-- A character of a key without quotes. -/
def isBare (c : Char) : Bool :=
  c.isAlphanum || c = '-' || c = '_'

/-- A name as a key: without quotes where it can stand so. -/
def writeKey (name : String) : List Char :=
  if name.toList ≠ [] ∧ name.toList.all isBare then name.toList else writeText name

/-- A list of texts, each one on a line of its own. -/
def writeTexts : List String → List Char
  | [] => ['[', ']']
  | texts =>
    ['[', '\n'] ++ texts.flatMap (fun s => "    ".toList ++ writeText s ++ [',', '\n']) ++ [']']

/-- A truth value. -/
def writeBool (b : Bool) : List Char :=
  if b then "true".toList else "false".toList

end HdlLint.Toml
