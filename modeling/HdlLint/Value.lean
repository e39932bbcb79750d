import HdlLint.Decimal.Binary64
import HdlLint.Text.Quoted

/-!
# Values

The values that documents hold and that the code of plugins gives: numbers, texts, lists and
tables. A value shows in messages in two ways: as it is written (`Value.shown`, a text in quotes)
and as it reads (`Value.display`, a text as it is).
-/

namespace HdlLint

/-- A value of a document or of a plugin. -/
inductive Value
  /-- The value of what is not there. -/
  | nothing
  | bool (b : Bool)
  | int (n : Int)
  | float (x : Binary64)
  | text (s : String)
  | list (items : List Value)
  | table (entries : List (String × Value))
  /-- A date, a time or both, as written. -/
  | moment (written : String)

namespace Value

/-- Zeros. -/
def zeros (count : Nat) : String :=
  String.ofList (List.replicate count '0')

/-- The text of `d * 10 ^ k`, with a point. Numbers below `10 ^ 16` and from `10 ^ -4` on are
written without an exponent; an exponent has a sign and two digits or more. -/
def decimalText (d : Nat) (k : Int) : String :=
  let digits := toString d
  let count : Int := digits.length
  let point := count + k
  if -4 < point ∧ point ≤ 16 then
    if point ≤ 0 then "0." ++ zeros (-point).toNat ++ digits
    else if count ≤ point then digits ++ zeros (point - count).toNat ++ ".0"
    else
      String.ofList (digits.toList.take point.toNat) ++ "." ++
        String.ofList (digits.toList.drop point.toNat)
  else
    let exponent := point - 1
    let size := toString exponent.natAbs
    let fraction := String.ofList (digits.toList.drop 1)
    String.ofList (digits.toList.take 1) ++ (if fraction = "" then "" else "." ++ fraction) ++
      (if exponent < 0 then "e-" else "e+") ++ (if size.length < 2 then "0" ++ size else size)

/-- The text of a number of double precision: the fewest digits that read back. -/
def floatText (x : Binary64) : String :=
  if x.isNaN then "nan"
  else
    let size :=
      if !x.isFinite then "inf"
      else if x.parts.1 = 0 then "0.0"
      else decimalText x.shortest.1 x.shortest.2
    if x.isNegative then "-" ++ size else size

mutual

/-- A value as it is written. -/
def shown : Value → String
  | .nothing => "None"
  | .bool true => "True"
  | .bool false => "False"
  | .int n => toString n
  | .float x => floatText x
  | .text s => Text.quote s
  | .list items => "[" ++ ", ".intercalate (shownItems items) ++ "]"
  | .table entries => "\x7b" ++ ", ".intercalate (shownEntries entries) ++ "\x7d"
  | .moment written => written

/-- The items of a list as they are written. -/
def shownItems : List Value → List String
  | [] => []
  | v :: vs => v.shown :: shownItems vs

/-- The entries of a table as they are written. -/
def shownEntries : List (String × Value) → List String
  | [] => []
  | (name, v) :: es => (Text.quote name ++ ": " ++ v.shown) :: shownEntries es

end

/-- A value as it reads: a text as it is, anything else as it is written. -/
def display : Value → String
  | .text s => s
  | v => v.shown

/-- Whether a value is a truth value. -/
def bool? : Value → Option Bool
  | .bool b => some b
  | _ => none

/-- The entries of a table. -/
def table? : Value → Option (List (String × Value))
  | .table entries => some entries
  | _ => none

/-- The text of a text. -/
def text? : Value → Option String
  | .text s => some s
  | _ => none

/-- The items of a list. -/
def list? : Value → Option (List Value)
  | .list items => some items
  | _ => none

end Value

end HdlLint
