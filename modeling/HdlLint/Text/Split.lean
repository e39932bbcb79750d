/-!
# Cutting and joining texts

`splitOn` cuts a text at every occurrence of a character, `occursIn` finds a text in another one, and
`ofLines` makes a text of lines.
-/

namespace HdlLint.Text

/-- Cuts a text at every occurrence of a character. There is always a first part. -/
def splitOn (sep : Char) : List Char → List (List Char)
  | [] => [[]]
  | c :: rest =>
    if c = sep then [] :: splitOn sep rest
    else match splitOn sep rest with
      | [] => [[c]]
      | part :: parts => (c :: part) :: parts

theorem splitOn_ne_nil (sep : Char) (s : List Char) : splitOn sep s ≠ [] := by
  cases s with
  | nil => simp [splitOn]
  | cons c rest =>
    rw [splitOn]
    split
    · simp
    · split <;> simp

/-- Whether a text starts with another one; what follows it then. -/
def afterStart? : (start s : List Char) → Option (List Char)
  | [], s => some s
  | c :: start, d :: s => if c = d then afterStart? start s else none
  | _ :: _, [] => none

/-- Whether a text occurs within another one. -/
def occursIn (part : List Char) : List Char → Bool
  | [] => part.isEmpty
  | c :: s => (afterStart? part (c :: s)).isSome || occursIn part s

/-- Lines as a text, each one with its end. -/
def ofLines (lines : List String) : String :=
  String.join (lines.map (· ++ "\n"))

end HdlLint.Text
