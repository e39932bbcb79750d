/-!
# Numbers with a base

The digits that may stand behind the base of a number, such as those of `8'hff`, and the first
character that may not (`NumberBase.firstBad?`).
-/

namespace HdlLint.Verilog

/-- The base of a number. -/
inductive NumberBase
  | binary
  | octal
  | decimal
  | hexadecimal
deriving DecidableEq, Repr

namespace NumberBase

/-- The base that a letter names. -/
def ofLetter? (c : Char) : Option NumberBase :=
  match c.toLower with
  | 'b' => some binary
  | 'o' => some octal
  | 'd' => some decimal
  | 'h' => some hexadecimal
  | _ => none

/-- The base at the end of a mark such as `'sb`. -/
def ofMark (mark : List Char) : NumberBase :=
  ((mark.getLast?).bind ofLetter?).getD decimal

/-- A digit whose value is not known. -/
def isUnknownDigit (c : Char) : Bool :=
  ['x', 'X', 'z', 'Z', '?'].contains c

/-- A digit of a base whose value is known. -/
def isKnownDigit (base : NumberBase) (c : Char) : Bool :=
  match base with
  | binary => c == '0' || c == '1'
  | octal => '0' ≤ c && c ≤ '7'
  | decimal => c.isDigit
  | hexadecimal => c.isDigit || ('a' ≤ c.toLower && c.toLower ≤ 'f')

/-- A digit of a base, or the underscore between digits. -/
def isPart (base : NumberBase) (c : Char) : Bool :=
  c == '_' || isUnknownDigit c || base.isKnownDigit c

/-- The digits of a lexeme: a sign in it ends a hexadecimal number. -/
def digitsOf (base : NumberBase) (raw : List Char) : List Char :=
  match base with
  | hexadecimal => raw.takeWhile fun c => c ≠ '+' && c ≠ '-'
  | _ => raw

/-- How many characters stand before the first one that is no part of a number with this base. In
a decimal number an unknown digit stands alone. -/
def firstBad? (base : NumberBase) (raw : List Char) : Option Nat :=
  let digits := base.digitsOf raw
  let known := digits.findIdx? fun c => !base.isPart c
  if base = decimal ∧ digits.any isUnknownDigit then
    let second := (digits.zipIdx.filter fun (c, _) => c ≠ '_')[1]?.map (·.2)
    match known, second with
    | some i, some j => some (min i j)
    | known, second => known.or second
  else known

end NumberBase

end HdlLint.Verilog
