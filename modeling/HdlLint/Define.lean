import HdlLint.OrderedTable
import HdlLint.Text.Escape

/-!
# Macro definitions

A macro definition as it is carried from one source file to the next (`Define`), the table of the
definitions in effect (`DefineTable`), and two ways of writing a definition on one line: as an
option of the command line (`Define.ofOption`) and as the text that seeds a preprocessor
(`Define.toPredefine`).
-/

namespace HdlLint

/-- One macro definition. -/
structure Define where
  identifier : String
  /-- The formal arguments, each with its default as it was written. -/
  arguments : List String := []
  /-- The text that a usage stands for, if any was given. -/
  text : Option String := none
deriving DecidableEq, Repr

/-- The definitions in effect, in the order in which they came. -/
abbrev DefineTable := OrderedTable Define

namespace Define

/-- A definition on one line: the name, the arguments in parentheses, an equals sign and the
text. -/
def toPredefine (d : Define) : String :=
  let head :=
    if d.arguments = [] then d.identifier
    else d.identifier ++ "(" ++ ",".intercalate d.arguments ++ ")"
  match d.text with
  | none => head
  | some text => head ++ "=" ++ text

/-- Cuts a text at its first equals sign. -/
def splitEquals (s : List Char) : List Char × Option (List Char) :=
  match s.dropWhile (· ≠ '=') with
  | [] => (s, none)
  | _ :: text => (s.takeWhile (· ≠ '='), some text)

/-- A name with an optional text behind an equals sign, the text taken as it is. -/
def ofItem (s : List Char) : Define :=
  let (name, text) := splitEquals s
  { identifier := String.ofList name, text := text.map String.ofList }

/-- The definition that an option of the command line gives: a name with an optional text, in
which escapes are read. -/
def ofOption (s : String) : Define :=
  let (name, text) := splitEquals s.toList
  { identifier := String.ofList name,
    text := text.map fun t => String.ofList (Text.unescapeChars t) }

end Define

namespace DefineTable

/-- Adds a definition under its own name. -/
def define (t : DefineTable) (d : Define) : DefineTable :=
  t.insert d.identifier d

end DefineTable

end HdlLint
