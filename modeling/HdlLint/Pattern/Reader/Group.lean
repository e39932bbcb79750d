import HdlLint.Pattern.Reader.Character

/-!
# Groups of a regular expression

Repetitions, options, and what stands between parentheses. A group reads the expression in it
through a function that is given.
-/

namespace HdlLint.Pattern

namespace Reader

/-! ## Repetitions -/

/-- A count of repetitions. -/
def checkCount (n : Nat) : Reader Nat := do
  if repeatLimit ≤ n then throw .countTooLarge
  return n

/-- Takes the bounds of a repetition behind an opening brace; there are none if the brace stands
for itself. -/
def takeBounds : Reader (Option (Nat × Option Nat)) := do
  let start ← get
  if (← peek) = some (.plain '\x7d') then return none
  let low ← takeUpTo Char.isDigit start.rest.length
  let high ← if ← accept ',' then takeUpTo Char.isDigit start.rest.length else pure low
  if !(← accept '\x7d') then
    set start
    return none
  let least ← if low = [] then pure 0 else checkCount (valueOf 10 low)
  if high = [] then return some (least, none)
  let most ← checkCount (valueOf 10 high)
  if most < least then malformed
  return some (least, some most)

/-- What is repeated: an item that takes characters. The items of a plain group count as they
are. -/
def repeated (item : Item) : Reader (List Item) := do
  match item with
  | .anchor _ => malformed
  | .loop .. => malformed
  | item => return [item]

/-- Takes the mark behind a repetition that says how it goes on. -/
def takeEagerness : Reader Eagerness := do
  if ← accept '?' then return .lazy
  if ← accept '+' then return .possessive
  return .greedy

/-- Repeats the last one of some items, the last of which comes first. -/
def takeLoop (least : Nat) (most : Option Nat) (acc : List Item) : Reader (List Item) := do
  match acc with
  | [] => malformed
  | item :: before =>
    let body ← repeated item
    let eagerness ← takeEagerness
    modify fun s => { s with hasLoop := true }
    return .loop eagerness least most body :: before

/-! ## Options -/

/-- Options that are switched on and off. -/
structure Change where
  on : List Char
  off : List Char

/-- Applies a change of options. -/
def Change.apply (change : Change) (o : Options) : Options :=
  change.off.foldl (·.set false) (change.on.foldl (·.set true) o)

/-- Takes options to switch on, the first of which is given, and the character that ends them. -/
def takeOn : (count : Nat) → (c : Char) → (acc : List Char) → Reader (List Char × Char)
  | 0, _, _ => malformed
  | count + 1, c, acc => do
    if c = 'L' then malformed
    let on := c :: acc
    if on.contains 'a' && on.contains 'u' then malformed
    match ← next with
    | some (.plain d) =>
      if d = ')' || d = '-' || d = ':' then return (on, d)
      else if optionChars.contains d then takeOn count d on
      else malformed
    | _ => malformed

/-- Takes options to switch off, up to the colon. -/
def takeOff : (count : Nat) → (acc : List Char) → Reader (List Char)
  | 0, _ => malformed
  | count + 1, acc => do
    match ← next with
    | some (.plain d) =>
      if d = ':' && acc ≠ [] then return acc
      else if optionChars.contains d && !(['a', 'L', 'u'].contains d) then takeOff count (d :: acc)
      else malformed
    | _ => malformed

/-- Takes a change of options, the first character of which is given. It is one for the whole
expression if there is none here. -/
def takeChange (c : Char) : Reader (Option Change) := do
  let count := (← get).rest.length + 1
  let (on, stop) ← if c = '-' then pure ([], '-') else takeOn count c []
  if stop = ')' then
    modify fun s => { s with
      options := { on.foldl (·.set true) s.options with
        ascii := s.options.ascii || on.contains 'a' }
      unicode := s.unicode || on.contains 'u' }
    return none
  if on.contains 't' then malformed
  let off ← if stop = '-' then takeOff count [] else pure []
  if off.contains 't' || on.any off.contains then malformed
  return some ⟨on, off⟩

/-! ## Groups -/

/-- Takes a name of a group, up to a character. -/
def takeName (stop : Char) : Reader String := do
  let name ← takeUntil stop
  if !Text.isIdentifier name then malformed
  return String.ofList name

/-- The number of the group of a name. -/
def named (name : String) : Reader Nat := do
  match (← get).names.find? (·.1 == name) with
  | some (_, number) => return number
  | none => malformed

/-- Opens a group, which may have a name of its own. -/
def openGroup (name : Option String) : Reader Nat := do
  let s ← get
  let names ← match name with
    | none => pure s.names
    | some name =>
      if s.names.any (·.1 == name) then malformed else pure ((name, s.groups) :: s.names)
  set { s with groups := s.groups + 1, names := names }
  return s.groups

/-- Closes a group. -/
def closeGroup (number : Nat) (body : List Item) : Reader Unit :=
  modify fun s => { s with widths := (number, width body) :: s.widths }

/-- Takes the end of a group. -/
def takeClose : Reader Unit := do
  if !(← accept ')') then malformed

/-- Passes over a comment. -/
def skipComment : (count : Nat) → Reader Unit
  | 0 => malformed
  | count + 1 => do
    match ← next with
    | none => malformed
    | some (.plain ')') => return
    | some _ => skipComment count

/-- Takes the group that a conditional asks for. -/
def takeCondition : Reader Nat := do
  let text ← takeUntil ')'
  let number ←
    if Text.isIdentifier text then named (String.ofList text)
    else match groupNumber? text with
      | none => malformed
      | some 0 => malformed
      | some number =>
        modify fun s => { s with conditions := number :: s.conditions }
        pure number
  checkBehind number
  return number

/-- What is read as the next part of an expression. -/
inductive Goal
  /-- Alternatives; the outermost ones take the options of the whole expression. -/
  | choice (outermost : Bool)
  /-- Items one after the other, of which some were read, the last one first. -/
  | items (first : Bool) (acc : List Item)
  /-- Further alternatives behind some. -/
  | branches (outermost : Bool) (acc : List (List Item))

/-- Reads a goal, given how goals are read on. -/
abbrev Rec := Options → Goal → Reader (List Item)

/-- Takes an expression that has to follow or to stand before. -/
def takeLook (run : Rec) (o : Options) (behind negated : Bool) : Reader Item := do
  let outer := (← get).behind
  if behind && outer.isNone then
    modify fun s => { s with behind := some s.groups }
  let body ← run o (.choice false)
  if behind && outer.isNone then
    modify fun s => { s with behind := none }
  takeClose
  if behind then
    let (low, high) := width body
    if low ≠ high || repeatLimit < low then modify fun s => { s with refused := true }
    return .behind negated body
  else return .ahead negated body

/-- Takes a conditional behind its opening parenthesis. -/
def takeConditional (run : Rec) (o : Options) : Reader Item := do
  let number ← takeCondition
  let yes ← run o (.items false [])
  let no ←
    if ← accept '|' then do
      let no ← run o (.items false [])
      if (← peek) = some (.plain '|') then malformed
      pure (some no)
    else pure none
  takeClose
  return .conditional number yes no

/-- Takes the body and the end of a group that keeps its text. -/
def takeKept (run : Rec) (o : Options) (name : Option String) : Reader Item := do
  let number ← openGroup name
  let body ← run o (.choice false)
  takeClose
  closeGroup number body
  return .group (some number) body

/-- Takes the body and the end of a group that does not keep its text. -/
def takePlain (run : Rec) (o : Options) (wrap : List Item → Item) : Reader Item := do
  let body ← run o (.choice false)
  takeClose
  return wrap body

/-- Takes a group behind its opening parenthesis; there is none where the parentheses hold a
comment or options of the whole expression. Those are only allowed at the very start. -/
def takeGroup (run : Rec) (o : Options) (atStart : Bool) : Reader (Option Item) := do
  if !(← accept '?') then return some (← takeKept run o none)
  match ← next with
  | some (.plain c) =>
    match c with
    | 'P' =>
      if ← accept '<' then
        let name ← takeName '>'
        return some (← takeKept run o (some name))
      else if ← accept '=' then
        let name ← takeName ')'
        return some (← reference o (← named name))
      else malformed
    | ':' => return some (← takePlain run o (.group none))
    | '>' => return some (← takePlain run o .atomic)
    | '#' =>
      skipComment ((← get).rest.length + 1)
      return none
    | '=' => return some (← takeLook run o false false)
    | '!' => return some (← takeLook run o false true)
    | '<' =>
      if ← accept '=' then return some (← takeLook run o true false)
      else if ← accept '!' then return some (← takeLook run o true true)
      else malformed
    | '(' => return some (← takeConditional run o)
    | c =>
      if c = '-' || optionChars.contains c then
        match ← takeChange c with
        | some change => return some (← takePlain run (change.apply o) (.group none))
        | none => if atStart then return none else malformed
      else malformed
  | _ => malformed

end Reader

end HdlLint.Pattern
