import HdlLint.Toml.Text
import HdlLint.Value

/-!
# Numbers of TOML documents

Whole numbers are decimal, or have a base that their first characters say; a fraction or an
exponent makes a number of double precision. Single underscores may stand between digits.
-/

namespace HdlLint.Toml

/-- A number, before its size is looked at. -/
inductive Numeral
  /-- A whole number in a base that the text says. -/
  | based (value : Nat)
  /-- A decimal whole number. -/
  | whole (negative : Bool) (digits : List Char)
  /-- A number with a fraction or an exponent: the digits without the point, the number of those
  behind it, and the exponent. -/
  | real (negative : Bool) (digits : List Char) (places : Nat) (exponent : Int)

/-- The digits at the front of a text, where an underscore stands for nothing if digits stand on
both sides, and what follows them. -/
def moreDigits (isDigit : Char → Bool) : List Char → List Char × List Char
  | '_' :: c :: rest =>
    if isDigit c then
      let (digits, rest) := moreDigits isDigit rest
      (c :: digits, rest)
    else ([], '_' :: c :: rest)
  | c :: rest =>
    if isDigit c then
      let (digits, rest) := moreDigits isDigit rest
      (c :: digits, rest)
    else ([], c :: rest)
  | [] => ([], [])

/-- One digit or more at the front of a text, and what follows them. -/
def digits? (isDigit : Char → Bool) : List Char → Option (List Char × List Char)
  | c :: rest =>
    if isDigit c then
      let (digits, rest) := moreDigits isDigit rest
      some (c :: digits, rest)
    else none
  | [] => none

/-- A sign, if one is next: whether it is a minus, and what follows it. -/
def sign : List Char → Bool × List Char
  | '-' :: rest => (true, rest)
  | '+' :: rest => (false, rest)
  | cs => (false, cs)

/-- The digits of a decimal whole number. Only zero starts with a zero. -/
def wholeDigits? : List Char → Option (List Char × List Char)
  | '0' :: rest => some (['0'], rest)
  | cs => digits? Char.isDigit cs

/-- The digits behind a point, if there are any. -/
def fractionDigits : List Char → List Char × List Char
  | '.' :: rest => (digits? Char.isDigit rest).getD ([], '.' :: rest)
  | cs => ([], cs)

/-- An exponent, if there is one. -/
def exponent? : List Char → Option (Int × List Char)
  | c :: rest =>
    if c = 'e' || c = 'E' then
      let (negative, rest) := sign rest
      (digits? Char.isDigit rest).map fun (digits, rest) =>
        let size : Int := ofDigits 10 digits
        (if negative then -size else size, rest)
    else none
  | [] => none

/-- A number with a base, and what follows it. -/
def based? : List Char → Option (Numeral × List Char)
  | '0' :: 'x' :: rest =>
    (digits? isHexDigit rest).map fun (digits, rest) => (.based (ofDigits 16 digits), rest)
  | '0' :: 'o' :: rest =>
    (digits? (fun c => '0' ≤ c && c ≤ '7') rest).map fun (digits, rest) =>
      (.based (ofDigits 8 digits), rest)
  | '0' :: 'b' :: rest =>
    (digits? (fun c => c = '0' || c = '1') rest).map fun (digits, rest) =>
      (.based (ofDigits 2 digits), rest)
  | _ => none

/-- A decimal number, and what follows it. -/
def decimal? (cs : List Char) : Option (Numeral × List Char) :=
  let (negative, cs) := sign cs
  match wholeDigits? cs with
  | none => none
  | some (whole, rest) =>
    let (fraction, rest) := fractionDigits rest
    match exponent? rest with
    | some (exponent, rest) =>
      some (.real negative (whole ++ fraction) fraction.length exponent, rest)
    | none =>
      if fraction.isEmpty then some (.whole negative whole, rest)
      else some (.real negative (whole ++ fraction) fraction.length 0, rest)

/-- The number at the front of a text, and what follows it. -/
def numeral? (cs : List Char) : Option (Numeral × List Char) :=
  match based? cs with
  | some r => some r
  | none => decimal? cs

/-- The most digits that a decimal whole number may have. -/
def maxDigits : Nat :=
  4300

/-- The value of a number. A decimal whole number with too many digits has none. -/
def Numeral.value? : Numeral → Option Value
  | .based n => some (.int n)
  | .whole negative digits =>
    if maxDigits < digits.length then none
    else
      let n : Int := ofDigits 10 digits
      some (.int (if negative then -n else n))
  | .real negative digits places exponent =>
    some (.float (Binary64.ofDecimal negative (ofDigits 10 digits) (exponent - places)))

/-- The numbers that have names, and what follows them. -/
def special? (cs : List Char) : Option (Value × List Char) :=
  let (negative, rest) := sign cs
  match rest with
  | 'i' :: 'n' :: 'f' :: rest => some (.float (Binary64.infinity negative), rest)
  | 'n' :: 'a' :: 'n' :: rest => some (.float (Binary64.notANumber negative), rest)
  | _ => none

end HdlLint.Toml
