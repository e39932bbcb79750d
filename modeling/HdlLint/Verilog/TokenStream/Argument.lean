import HdlLint.Verilog.TokenStream.Basic

/-!
# Arguments of macros

The arguments that stand behind the usage of a macro: lexemes between commas, where delimiters keep
together what is between them (`takeActuals`).
-/

namespace HdlLint.Verilog.TokenStream

/-- The closing delimiter of an opening one. -/
def closer? (l : Lexeme) : Option String :=
  if l.cls ≠ .symbol then none
  else if l.raw == "(" then some ")"
  else if l.raw == "(*" then some "*)"
  else if l.raw == "[" then some "]"
  else if l.raw == "\x7b" || l.raw == "'\x7b" then some "\x7d"
  else none

/-- Takes the lexemes of one argument: up to a comma or a closing parenthesis that is not nested
in delimiters. -/
def takeArgument : (count : Nat) → (closers : List String) → List Lexeme →
    Preprocessor (List Lexeme × List Lexeme)
  | 0, _, buffer => return ([], buffer)
  | count + 1, closers, buffer => do
    let l ← peekFrom buffer
    if l.cls = .endOfFile || (closers = [] && (l.isSymbol "," || l.isSymbol ")")) then
      return ([], buffer)
    let (l, buffer) ← takeFrom buffer
    let closers := match closers with
      | c :: outer => if l.isSymbol c then outer else closers
      | [] => closers
    let closers := match closer? l with
      | some c => c :: closers
      | none => closers
    let (ls, buffer) ← takeArgument count closers buffer
    return (l :: ls, buffer)

/-- Takes arguments that are separated by commas. -/
def takeArguments : (count : Nat) → List Lexeme →
    Preprocessor (List (List Lexeme) × List Lexeme)
  | 0, buffer => return ([], buffer)
  | count + 1, buffer => do
    let (argument, buffer) ← takeArgument (buffer.length + (← remaining)) [] buffer
    let l ← peekFrom buffer
    if l.isSymbol "," then
      let (_, buffer) ← takeFrom buffer
      let (arguments, buffer) ← takeArguments count buffer
      return (argument :: arguments, buffer)
    else
      return ([argument], buffer)

/-- The arguments of a usage, and the places of their parentheses. -/
structure Actuals where
  arguments : List (List Lexeme)
  opening : Location
  closing : Location

/-- Takes the arguments of a usage. -/
def takeActuals (usage : Lexeme) (buffer : List Lexeme) :
    Preprocessor (Option Actuals × List Lexeme) := do
  let l ← peekFrom buffer
  if !l.isSymbol "(" then
    report .missingArguments usage.stop
    return (none, buffer)
  let (opening, buffer) ← takeFrom buffer
  let (arguments, buffer) ← takeArguments (buffer.length + (← remaining)) buffer
  let l ← peekFrom buffer
  if l.isSymbol ")" then
    let (closing, buffer) ← takeFrom buffer
    return (some ⟨arguments, opening.start, closing.start⟩, buffer)
  else
    let last := (← get).last
    report (.expected "')'") last
    return (some ⟨arguments, opening.start, last⟩, buffer)

end HdlLint.Verilog.TokenStream
