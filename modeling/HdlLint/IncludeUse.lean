import HdlLint.Text.Blank
import HdlLint.Text.Split

/-!
# Include directives in a line

`IncludeUse.name?` finds the name of the first file that a line includes: what stands behind a
quote or an opening angle bracket after `include`, up to the next quote or closing bracket.
-/

namespace HdlLint.IncludeUse

/-- The name behind the blanks after `include`. -/
def nameAfter? (s : List Char) : Option (List Char) :=
  match s.dropWhile Text.isBlank with
  | '"' :: rest => named rest
  | '<' :: rest => named rest
  | _ => none
where
  /-- A name that is not empty. -/
  named (rest : List Char) : Option (List Char) :=
    match rest.takeWhile fun c => c ≠ '"' && c ≠ '>' with
    | [] => none
    | name => some name

/-- The name of the first file that is included in a text. -/
def find? : List Char → Option (List Char)
  | [] => none
  | c :: rest =>
    match (Text.afterStart? "\x60include".toList (c :: rest)).bind nameAfter? with
    | some name => some name
    | none => find? rest

/-- The name of the first file that is included in a line. -/
def name? (line : String) : Option String :=
  (find? line.toList).map String.ofList

end HdlLint.IncludeUse
