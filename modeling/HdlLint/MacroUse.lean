import HdlLint.Text.Word

/-!
# Usages of macros in a line

A usage of a macro is a backtick with a name after it. `MacroUse.nameAt?` finds the usage that a
column of a line points at: messages about a macro may stand anywhere from the backtick to just
behind the name.
-/

namespace HdlLint

/-- A usage of a macro: where its backtick stands, counted from zero, and its name. -/
structure MacroUse where
  start : Nat
  name : List Char
deriving DecidableEq, Repr

namespace MacroUse

/-- The usages in a text whose first character stands at a position. -/
def scanFrom (position : Nat) : List Char → List MacroUse
  | [] => []
  | '\x60' :: rest =>
    match rest.takeWhile Text.isWord with
    | [] => scanFrom (position + 1) rest
    | name => ⟨position, name⟩ :: scanFrom (position + 1) rest
  | _ :: rest => scanFrom (position + 1) rest

/-- The usages in a text, from left to right. -/
def scan (s : List Char) : List MacroUse :=
  scanFrom 0 s

/-- Goes through usages and keeps the last one that starts before the end of a column, or the
first one. -/
def pick (column : Int) : (found : Option (List Char)) → List MacroUse → Option (List Char)
  | found, [] => found
  | none, u :: us => pick column (some u.name) us
  | some name, u :: us => if column ≤ u.start then some name else pick column (some u.name) us

/-- The name of the usage that a column points at, counted from one: the last one that starts at
or before it, else the first one of the text. -/
def nameAt? (text : String) (column : Int) : Option String :=
  (pick column none (scan text.toList)).map String.ofList

end MacroUse

end HdlLint
