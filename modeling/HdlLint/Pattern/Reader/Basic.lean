import HdlLint.Pattern.Basic

/-!
# The state of reading a regular expression

The text of an expression is first cut into symbols: a character, or a backslash with the character
behind it. A `Reader` takes symbols from the front and may refuse the text for one of three causes
(`Fault`).
-/

namespace HdlLint.Pattern

/-- Why a text is no regular expression. -/
inductive Fault
  | malformed
  /-- A count of repetitions that is beyond all bounds. -/
  | countTooLarge
  /-- Options that contradict each other. -/
  | contradictoryOptions
deriving DecidableEq, Repr

/-- A character of an expression, or one behind a backslash. -/
inductive Symbol
  | plain (c : Char)
  | escaped (c : Char)
deriving DecidableEq, Repr

/-- Cuts a text into symbols. A backslash at the end escapes nothing. -/
def Symbol.ofText : List Char → Option (List Symbol)
  | [] => some []
  | ['\\'] => none
  | '\\' :: c :: rest => (ofText rest).map (.escaped c :: ·)
  | c :: rest => (ofText rest).map (.plain c :: ·)

/-- The text of a symbol. -/
def Symbol.text : Symbol → List Char
  | .plain c => [c]
  | .escaped c => ['\\', c]

/-- The state of reading. -/
structure State where
  rest : List Symbol
  /-- The number of groups that were opened, the whole expression among them. -/
  groups : Nat
  /-- The widths of the groups that were closed. -/
  widths : List (Nat × Nat × Nat)
  names : List (String × Nat)
  /-- The number of groups in front of the expression that has to stand before, if one is read. -/
  behind : Option Nat
  /-- The groups that conditionals ask for. -/
  conditions : List Nat
  options : Options
  /-- Whether the options ask for the letters of all scripts. -/
  unicode : Bool
  /-- Whether something was read that is refused once all is read. -/
  refused : Bool
  hasLoop : Bool

/-- A step of reading. -/
abbrev Reader := StateT State (Except Fault)

/-- The characters of the options. -/
def optionChars : List Char :=
  ['i', 'L', 'm', 's', 'x', 'a', 't', 'u']

/-- Sets an option. -/
def Options.set (o : Options) (on : Bool) : Char → Options
  | 'i' => { o with ignoreCase := on }
  | 'm' => { o with multiLine := on }
  | 's' => { o with dotAll := on }
  | 'x' => { o with verbose := on }
  | 't' => { o with template := on }
  | 'a' => { o with ascii := on }
  | 'u' => { o with ascii := !on }
  | _ => o

namespace Reader

/-- Refuses the text. -/
def malformed {α : Type} : Reader α :=
  throw .malformed

/-- The next symbol, which stays. -/
def peek : Reader (Option Symbol) := do
  return (← get).rest.head?

/-- Takes the next symbol. -/
def next : Reader (Option Symbol) := do
  let s ← get
  match s.rest with
  | [] => return none
  | symbol :: rest =>
    set { s with rest := rest }
    return some symbol

/-- Takes a character if it is next. -/
def accept (c : Char) : Reader Bool := do
  let s ← get
  match s.rest with
  | .plain d :: rest =>
    if c = d then
      set { s with rest := rest }
      return true
    else return false
  | _ => return false

/-- Takes characters of a class, at most a number of them. -/
def takeUpTo (p : Char → Bool) : Nat → Reader (List Char)
  | 0 => return []
  | count + 1 => do
    let s ← get
    match s.rest with
    | .plain c :: rest =>
      if p c then
        set { s with rest := rest }
        return c :: (← takeUpTo p count)
      else return []
    | _ => return []

/-- Takes the text up to a character, and the character. The text must not be empty. -/
def takeUntil (stop : Char) : Reader (List Char) := do
  let s ← get
  let inner := s.rest.takeWhile (· ≠ .plain stop)
  match inner, s.rest.dropWhile (· ≠ .plain stop) with
  | _ :: _, _ :: rest =>
    set { s with rest := rest }
    return inner.flatMap Symbol.text
  | _, _ => malformed

end Reader

end HdlLint.Pattern
