import HdlLint.Pattern.Reader.Basic
import HdlLint.Text.Identifier

/-!
# Characters of a regular expression

Single characters and what stands behind a backslash: classes, anchors, codes and references; and
sets of characters in brackets.
-/

namespace HdlLint.Pattern

namespace Reader

/-! ## Numbers -/

/-- A digit of octal numbers. -/
def isOctal (c : Char) : Bool :=
  '0' ≤ c && c ≤ '7'

/-- The value of a hexadecimal digit. -/
def hexValue (c : Char) : Nat :=
  if c.isDigit then c.toNat - 0x30
  else if 'a' ≤ c && c ≤ 'f' then c.toNat - 0x57
  else c.toNat - 0x37

/-- A digit of hexadecimal numbers. -/
def isHex (c : Char) : Bool :=
  c.isDigit || ('a' ≤ c && c ≤ 'f') || ('A' ≤ c && c ≤ 'F')

/-- The value of digits. -/
def valueOf (base : Nat) (digits : List Char) : Nat :=
  digits.foldl (fun n c => n * base + hexValue c) 0

/-- The value of a decimal digit of any script. -/
def decimalValue? (c : Char) : Option Nat :=
  if c.isDigit then some (c.toNat - 0x30)
  else (Text.decimalRanges.find? fun r => r.1 ≤ c.toNat && c.toNat ≤ r.2).map
    fun r => (c.toNat - r.1) % 10

/-- The value of decimal digits of any script, which an underscore may separate. -/
def decimalsValue? (n : Nat) : List Char → Option Nat
  | [] => some n
  | '_' :: c :: rest =>
    match decimalValue? c with
    | some d => decimalsValue? (n * 10 + d) rest
    | none => none
  | c :: rest =>
    match decimalValue? c with
    | some d => decimalsValue? (n * 10 + d) rest
    | none => none

/-- The number of a group: decimal digits with an optional plus sign, between blanks. -/
def groupNumber? (text : List Char) : Option Nat :=
  let digits := match Text.strip text with
    | '+' :: rest => rest
    | text => text
  match digits with
  | [] => none
  | '_' :: _ => none
  | digits => decimalsValue? 0 digits

/-! ## Single characters -/

/-- An item for one code point. -/
def literal (o : Options) (n : Nat) : Item :=
  .char ⟨false, [.range n n], o.ignoreCase, o.ascii⟩

/-- The class that a letter behind a backslash names. -/
def class? (c : Char) : Option SetItem :=
  match c with
  | 'd' => some (.ofClass .digit false)
  | 'D' => some (.ofClass .digit true)
  | 's' => some (.ofClass .blank false)
  | 'S' => some (.ofClass .blank true)
  | 'w' => some (.ofClass .word false)
  | 'W' => some (.ofClass .word true)
  | _ => none

/-- The anchor that a letter behind a backslash names. -/
def anchor? (o : Options) (c : Char) : Option Anchor :=
  match c with
  | 'A' => some .start
  | 'Z' => some .stop
  | 'b' => some (.boundary false o.ascii)
  | 'B' => some (.boundary true o.ascii)
  | _ => none

/-- The control character that a letter behind a backslash stands for. -/
def control? (c : Char) : Option Nat :=
  match c with
  | 'a' => some 7
  | 'b' => some 8
  | 'f' => some 12
  | 'n' => some 10
  | 'r' => some 13
  | 't' => some 9
  | 'v' => some 11
  | '\\' => some 0x5c
  | _ => none

/-- Takes the digits of a code point, exactly a number of them. -/
def takeHex (count : Nat) : Reader Nat := do
  let digits ← takeUpTo isHex count
  if digits.length ≠ count || 0x10ffff < valueOf 16 digits then malformed
  return valueOf 16 digits

/-- Takes the code point that a character behind a backslash starts, but for digits. -/
def takeCode (c : Char) : Reader Nat := do
  match c with
  | 'x' => takeHex 2
  | 'u' => takeHex 4
  | 'U' => takeHex 8
  | c => if c.isAlpha then malformed else return c.toNat

/-- Takes an octal code point of up to three digits, the first of which is given. -/
def takeOctal (c : Char) : Reader Nat := do
  let digits ← takeUpTo isOctal 2
  let n := valueOf 8 (c :: digits)
  if 0o377 < n then malformed
  return n

/-- The width of a group that was closed. -/
def width? (number : Nat) : Reader (Option (Nat × Nat)) := do
  return ((← get).widths.find? (·.1 = number)).map (·.2)

/-- Refuses a group that may not be referred to from what has to stand before. -/
def checkBehind (number : Nat) : Reader Unit := do
  if let some limit := (← get).behind then
    if (← width? number).isNone || limit ≤ number then malformed

/-- Refers to a group, which has to be closed. -/
def reference (o : Options) (number : Nat) : Reader Item := do
  match ← width? number with
  | none => malformed
  | some (low, high) =>
    checkBehind number
    return .reference number low high o.ignoreCase o.ascii

/-- Takes what digits behind a backslash stand for, the first of which is given: a code point of
three octal digits, or the number of a group. -/
def takeDigits (o : Options) (c : Char) : Reader Item := do
  match ← takeUpTo Char.isDigit 1 with
  | [d] =>
    if isOctal c && isOctal d then
      match ← takeUpTo isOctal 1 with
      | [e] =>
        let n := valueOf 8 [c, d, e]
        if 0o377 < n then malformed
        return literal o n
      | _ => reference o (valueOf 10 [c, d])
    else reference o (valueOf 10 [c, d])
  | _ => reference o (valueOf 10 [c])

/-- Takes what a character behind a backslash starts. -/
def takeEscape (o : Options) (c : Char) : Reader Item := do
  if let some item := class? c then return .char ⟨false, [item], o.ignoreCase, o.ascii⟩
  else if let some a := anchor? o c then return .anchor a
  else if let some n := control? c then return literal o n
  else if c = '0' then
    return literal o (valueOf 8 (← takeUpTo isOctal 2))
  else if c.isDigit then takeDigits o c
  else return literal o (← takeCode c)

/-! ## Sets -/

/-- Takes what a symbol of a set starts. -/
def takeSetItem (symbol : Symbol) : Reader SetItem := do
  match symbol with
  | .plain c => return .range c.toNat c.toNat
  | .escaped c =>
    if let some n := control? c then return .range n n
    else if let some item := class? c then return item
    else
      let n ← if isOctal c then takeOctal c else if c.isDigit then malformed else takeCode c
      return .range n n

/-- Takes the items of a set up to its end. A bracket in front is an item. -/
def takeSetItems : (count : Nat) → (acc : List SetItem) → Reader (List SetItem)
  | 0, _ => malformed
  | count + 1, acc => do
    match ← next with
    | none => malformed
    | some symbol =>
      if symbol = .plain ']' && acc ≠ [] then return acc.reverse
      let low ← takeSetItem symbol
      if ← accept '-' then
        match ← next with
        | none => malformed
        | some (.plain ']') => return (.range 0x2d 0x2d :: low :: acc).reverse
        | some symbol =>
          let high ← takeSetItem symbol
          match low, high with
          | .range a _, .range b _ =>
            if b < a then malformed
            takeSetItems count (.range a b :: acc)
          | _, _ => malformed
      else takeSetItems count (low :: acc)

/-- Takes a set behind its opening bracket. -/
def takeSet (o : Options) : Reader Item := do
  let negated ← accept '^'
  let items ← takeSetItems ((← get).rest.length + 1) []
  return .char ⟨negated, items, o.ignoreCase, o.ascii⟩

end Reader

end HdlLint.Pattern
