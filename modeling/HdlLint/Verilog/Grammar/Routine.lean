import HdlLint.Verilog.Grammar.Statement

/-!
# Procedures and routines

Procedures, which start by themselves, and functions and tasks, which are called.
-/

namespace HdlLint.Verilog.Parser

/-- The kinds of procedures, by their words. -/
def procedureKind? : String → Option String
  | "initial" => some "InitialBlock"
  | "final" => some "FinalBlock"
  | "always" => some "AlwaysBlock"
  | "always_comb" => some "AlwaysCombBlock"
  | "always_ff" => some "AlwaysFFBlock"
  | "always_latch" => some "AlwaysLatchBlock"
  | _ => none

/-- A procedure. Only an `initial` one may be empty. -/
def procedure (kind : String) (attrs : Tree) : Parser Tree := do
  let word ← take
  let inner ← parse (.statement (kind = "InitialBlock"))
  return node kind [attrs, word, inner]

/-- A name with scopes, or the word that creates objects. -/
def routineName : Parser Tree := do
  let first ← if ← atKeyword "new" then take else expectName
  rest (node "IdentifierName" [first]) (← itemLimit)
where
  /-- What follows the first name. -/
  rest (left : Tree) : Nat → Parser Tree
    | 0 => return left
    | count + 1 => do
      if ← atSymbols ["::", "."] then
        let separator ← take
        let name ← if ← atKeyword "new" then take else expectName
        rest (node "ScopedName" [left, separator, node "IdentifierName" [name]]) count
      else return left

/-- The first line of a function or a task, without its semicolon. -/
def prototype : Parser Tree := do
  let isTask ← atKeyword "task"
  let word ← take
  let lifetime ← optionalKeywords ["static", "automatic"]
  let implicit ←
    if isTask || (← atKeyword "new") then pure true
    else match ← scanName 0 with
      | some distance =>
        let next ← peekAt distance
        pure (next.isSymbol ";" || next.isSymbol "(")
      | none => pure false
  let type ← if implicit then implicitType else parse (.dataType true)
  let name ← routineName
  let ports ← functionPorts
  return node "FunctionPrototype" [word, list [], lifetime, type, name, ports]

/-- The last name in a tree. -/
def lastName? : Tree → Option Token
  | .node _ children => children.getLast?.bind fun
    | .token t => some t
    | .node _ inner => inner.getLast?.bind fun
      | .token t => some t
      | _ => none
    | .absent => none
  | _ => none

/-- A function or a task. -/
def routine (attrs : Tree) : Parser Tree := do
  let isTask ← atKeyword "task"
  let stop := if isTask then "endtask" else "endfunction"
  let header ← prototype
  let semi ← expectSymbol ";"
  let inner ← blockItems
  let word ← expectKeyword stop
  let stopName ← blockName
  checkNames (lastName? (header.children.getD 4 .absent)) stopName
  return node (if isTask then "TaskDeclaration" else "FunctionDeclaration")
    [attrs, header, semi, inner, word, stopName]

end HdlLint.Verilog.Parser
