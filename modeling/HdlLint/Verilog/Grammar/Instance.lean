import HdlLint.Verilog.Grammar.Statement

/-!
# Instances

Instances of design elements and of gates with their connections, and continuous assignments.
-/

namespace HdlLint.Verilog.Parser

/-- A connection of an instance. -/
def connection : Parser Tree := do
  let attrs ← attributes
  if ← atSymbols [",", ")"] then return node "EmptyPortConnection" [attrs, placeholder]
  else if ← atSymbol ".*" then return node "WildcardPortConnection" [attrs, ← take]
  else if ← atSymbol "." then
    let dot ← take
    let name ← expectName
    if ← atSymbol "(" then
      let opening ← take
      let inner ← if ← atSymbol ")" then pure .absent else parse .property
      let closing ← expectSymbol ")"
      return node "NamedPortConnection" [attrs, dot, name, opening, inner, closing]
    else return node "NamedPortConnection" [attrs, dot, name]
  else return node "OrderedPortConnection" [attrs, ← parse .property]

/-- An instance with its connections. -/
def instance_ : Parser Tree := do
  let name ←
    if ← atClass .identifier then do
      let name ← take
      let dims ← dimensions
      pure (node "InstanceName" [name, dims])
    else pure .absent
  let opening ← expectSymbol "("
  let inner ← items
    ⟨",", fun l => startsProperty l || [".", ".*", ",", "(*"].any l.isSymbol, endsParentheses,
      "connection"⟩ connection
  let closing ← expectSymbol ")"
  return node "HierarchicalInstance" [name, opening, inner, closing]

/-- The instances of a declaration. -/
def instances : Parser Tree :=
  itemsOne ⟨",", fun l => l.cls = .identifier || l.isSymbol "(", endsDeclaration, "instance"⟩
    instance_

/-- Whether instances of a design element are next. -/
def atInstances : Parser Bool := do
  if !(← atClass .identifier) then return false
  if (← peekAt 1).isSymbol "#" then
    if (← peekAt 2).isSymbol "(" then
      match ← scanPair "(" ")" 0 (← itemLimit) 3 with
      | some distance => atConnections distance
      | none => return true
    else return true
  else atConnections 1
where
  /-- Whether connections stand at a distance, perhaps behind the name of an instance. -/
  atConnections (distance : Nat) : Parser Bool := do
    let l ← peekAt distance
    if l.isSymbol "(" then return true
    else if l.cls ≠ .identifier then return false
    else match ← scanDimensions (← itemLimit) (distance + 1) with
      | some distance => return (← peekAt distance).isSymbol "("
      | none => return false

/-- Instances of a design element. -/
def instantiation (attrs : Tree) : Parser Tree := do
  let name ← take
  let parameters ←
    if ← atSymbol "#" then
      if (← peekAt 1).isSymbol "(" then parameterAssignments else delay
    else pure .absent
  let inner ← instances
  let semi ← expectSymbol ";"
  return node "HierarchyInstantiation" [attrs, name, parameters, inner, semi]

/-- The words of gates. -/
def gateWords : List String :=
  ["and", "nand", "or", "nor", "xor", "xnor", "buf", "not", "bufif0", "bufif1", "notif0",
    "notif1", "nmos", "pmos", "rnmos", "rpmos", "cmos", "rcmos", "tran", "rtran", "tranif0",
    "tranif1", "rtranif0", "rtranif1", "pullup", "pulldown"]

/-- Instances of a gate. -/
def gates (attrs : Tree) : Parser Tree := do
  let word ← take
  let driven ← strength
  let wait ← if ← atSymbol "#" then transitionDelay else pure .absent
  let inner ← instances
  let semi ← expectSymbol ";"
  return node "PrimitiveInstantiation" [attrs, word, driven, wait, inner, semi]

/-- A continuous assignment. -/
def continuousAssign (attrs : Tree) : Parser Tree := do
  let word ← take
  let driven ← strength
  let wait ← if ← atSymbol "#" then transitionDelay else pure .absent
  let values ← itemsOne
    ⟨",", startsExpression, endsDeclaration, "assignment"⟩ (parse .assignment)
  let semi ← expectSymbol ";"
  return node "ContinuousAssign" [attrs, word, driven, wait, values, semi]

end HdlLint.Verilog.Parser
