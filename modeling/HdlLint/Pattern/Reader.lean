import HdlLint.Pattern.Reader.Group

/-!
# Reading regular expressions

`Pattern.read` reads the text of a regular expression, or refuses it for one of three causes
(`Pattern.Fault`).
-/

namespace HdlLint.Pattern

namespace Reader

/-- Whether a character separates parts of a spread-out expression. -/
def isSpread (c : Char) : Bool :=
  c == ' ' || (0x09 ≤ c.toNat && c.toNat ≤ 0x0d)

/-- Passes over the rest of a line. -/
def skipLine : (count : Nat) → Reader Unit
  | 0 => return
  | count + 1 => do
    match ← next with
    | none => return
    | some (.plain '\n') => return
    | some _ => skipLine count

/-- Any character, but for a line end unless the options allow it. -/
def anyChar (o : Options) : Item :=
  .char ⟨true, if o.dotAll then [] else [.range 0x0a 0x0a], false, o.ascii⟩

/-- Reads items one after the other, of which some were read, the last one first. -/
def readItems (run : Rec) (o : Options) (first : Bool) (acc : List Item) : Reader (List Item) := do
  match ← peek with
  | none => return acc.reverse
  | some (.plain '|') => return acc.reverse
  | some (.plain ')') => return acc.reverse
  | some (.escaped c) =>
    let _ ← next
    let item ← takeEscape o c
    run o (.items first (item :: acc))
  | some (.plain c) =>
    let _ ← next
    let add (item : Item) : Reader (List Item) := run o (.items first (item :: acc))
    let loop (least : Nat) (most : Option Nat) : Reader (List Item) := do
      run o (.items first (← takeLoop least most acc))
    if o.verbose && isSpread c then run o (.items first acc)
    else if o.verbose && c = '#' then
      skipLine ((← get).rest.length + 1)
      run o (.items first acc)
    else match c with
    | '[' => add (← takeSet o)
    | '.' => add (anyChar o)
    | '^' => add (.anchor (if o.multiLine then .lineStart else .start))
    | '$' => add (.anchor (if o.multiLine then .lineEnd else .lastLineEnd))
    | '?' => loop 0 (some 1)
    | '*' => loop 0 none
    | '+' => loop 1 none
    | '\x7b' =>
      match ← takeBounds with
      | some (least, most) => loop least most
      | none => add (literal o c.toNat)
    | '(' =>
      match ← takeGroup run o (first && acc.isEmpty) with
      | some item => add item
      | none =>
        let s ← get
        run (if first then s.options else o) (.items first acc)
    | c => add (literal o c.toNat)

/-- Reads a goal, given how goals are read on. -/
def readGoal (run : Rec) (o : Options) : Goal → Reader (List Item)
  | .choice outermost => run o (.branches outermost [])
  | .items first acc => readItems run o first acc
  | .branches outermost acc => do
    let s ← get
    let o := if outermost then s.options else o
    let branch ← run o (.items (outermost && acc.isEmpty) [])
    if ← accept '|' then run o (.branches outermost (branch :: acc))
    else match acc with
      | [] => return branch
      | _ => return [.choice (branch :: acc).reverse]

/-- Reads a goal, down to a depth. -/
def readDown : (depth : Nat) → Rec
  | 0 => fun _ _ => malformed
  | depth + 1 => readGoal (readDown depth)

/-- Reads a whole expression. -/
def readAll : Reader (List Item) := do
  let count := (← get).rest.length
  let items ← readDown (4 * count + 8) {} (.choice true)
  let s ← get
  if s.options.ascii && s.unicode then throw .contradictoryOptions
  if s.rest ≠ [] || s.conditions.any (s.groups ≤ ·) || s.refused ||
      (s.options.template && s.hasLoop) then malformed
  return items

end Reader

/-- Reads a regular expression. -/
def read (text : String) : Except Fault (List Item) :=
  match Symbol.ofText text.toList with
  | none => .error .malformed
  | some symbols =>
    match Reader.readAll.run
      { rest := symbols, groups := 1, widths := [], names := [], behind := none, conditions := [],
        options := {}, unicode := false, refused := false, hasLoop := false } with
    | .ok (items, _) => .ok items
    | .error fault => .error fault

end HdlLint.Pattern
