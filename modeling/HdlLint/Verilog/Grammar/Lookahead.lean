import HdlLint.Verilog.Grammar.Cursor

/-!
# Looking ahead

How far names, dimensions and pairs of delimiters reach from a distance on. A name in front of
another name is a type and what it declares (`atTypeAndName`).
-/

namespace HdlLint.Verilog.Parser

/-- The distance behind a closing delimiter, from a distance within its pair on. -/
def scanPair (opening closing : String) : (nesting count distance : Nat) → Parser (Option Nat)
  | _, 0, _ => return none
  | nesting, count + 1, distance => do
    let l ← peekAt distance
    if l.cls = .endOfFile || l.isSymbol ";" then return none
    else if l.isSymbol opening then scanPair opening closing (nesting + 1) count (distance + 1)
    else if l.isSymbol closing then
      if nesting = 0 then return some (distance + 1)
      else scanPair opening closing (nesting - 1) count (distance + 1)
    else scanPair opening closing nesting count (distance + 1)

/-- The distance behind dimensions in brackets. -/
def scanDimensions : (count distance : Nat) → Parser (Option Nat)
  | 0, _ => return none
  | count + 1, distance => do
    if (← peekAt distance).isSymbol "[" then
      match ← scanPair "[" "]" 0 (← itemLimit) (distance + 1) with
      | some distance => scanDimensions count distance
      | none => return none
    else return some distance

/-- The distance behind the rest of a name: scopes and parameters. -/
def scanNameRest : (count distance : Nat) → Parser (Option Nat)
  | 0, _ => return none
  | count + 1, distance => do
    let l ← peekAt distance
    if l.isSymbol "#" then
      if (← peekAt (distance + 1)).isSymbol "(" then
        match ← scanPair "(" ")" 0 (← itemLimit) (distance + 2) with
        | some distance => scanNameRest count distance
        | none => return none
      else return none
    else if l.isSymbol "::" then
      if (← peekAt (distance + 1)).cls = .identifier then scanNameRest count (distance + 2)
      else return none
    else return some distance

/-- The distance behind a name with scopes and parameters. -/
def scanName (distance : Nat) : Parser (Option Nat) := do
  let l ← peekAt distance
  if l.cls = .identifier || (l.cls = .systemName && l.raw == "$unit") then
    scanNameRest (← itemLimit) (distance + 1)
  else return none

/-- Whether a name with dimensions and another name come next: a type and what it declares. -/
def atTypeAndName : Parser Bool := do
  match ← scanName 0 with
  | none => return false
  | some distance =>
    match ← scanDimensions (← itemLimit) distance with
    | none => return false
    | some distance => return (← peekAt distance).cls = .identifier

end HdlLint.Verilog.Parser
