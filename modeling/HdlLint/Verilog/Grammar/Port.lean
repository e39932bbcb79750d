import HdlLint.Verilog.Grammar.Statement

/-!
# Ports

The ports in the header of a design element: plain names, whose directions are declared in the body,
or declarations in the header itself.
-/

namespace HdlLint.Verilog.Parser

/-- A name in the list of ports, with a selection. -/
def portReference : Parser Tree := do
  let name ← expectName
  let select ← if ← atSymbol "[" then elementSelect else pure .absent
  return node "PortReference" [name, select]

/-- What a port stands for: names in braces, or one name. -/
def portExpression : Parser Tree := do
  if ← atSymbol "\x7b" then
    let opening ← take
    let parts ← itemsOne ⟨",", fun l => l.cls = .identifier, endsBraces, "port"⟩ portReference
    let closing ← expectSymbol "\x7d"
    return node "PortConcatenation" [opening, parts, closing]
  else portReference

/-- A port whose declaration follows in the body. -/
def plainPort : Parser Tree := do
  if ← atSymbol "." then
    let dot ← take
    let name ← expectName
    let opening ← expectSymbol "("
    let inner ← if ← atSymbol ")" then pure .absent else portExpression
    let closing ← expectSymbol ")"
    return node "ExplicitNonAnsiPort" [dot, name, opening, inner, closing]
  else if ← atSymbols [",", ")"] then return node "EmptyNonAnsiPort" [placeholder]
  else return node "ImplicitNonAnsiPort" [← portExpression]

/-- A port with its declaration. -/
def declaredPort : Parser Tree := do
  let attrs ← attributes
  if ← atSymbols [",", ")"] then return node "EmptyNonAnsiPort" [placeholder]
  let direction ←
    if (← peekAt 1).isSymbol "." then optionalKeywords directionKeywords else pure .absent
  if ← atSymbol "." then
    let dot ← take
    let name ← expectName
    let opening ← expectSymbol "("
    let inner ← if ← atSymbol ")" then pure .absent else expression
    let closing ← expectSymbol ")"
    return node "ExplicitAnsiPort" [attrs, direction, dot, name, opening, inner, closing]
  else
    let header ← portHeader
    let name ← declarator
    return nodeWith "ImplicitAnsiPort" [("header", 1)] [attrs, header, name]

/-- Whether the ports of a list are declared in the body: the first one is a lone name, a name
with selections, a concatenation, a named port or nothing. -/
def atPlainPorts : Parser Bool := do
  let l ← peek
  if [".", "\x7b", ","].any l.isSymbol then return true
  else if l.cls = .identifier then
    match ← scanDimensions (← itemLimit) 1 with
    | some distance =>
      let next ← peekAt distance
      return next.isSymbol "," || next.isSymbol ")"
    | none => return false
  else return false

/-- The ports of a header. -/
def ports : Parser Tree := do
  if !(← atSymbol "(") then return .absent
  let opening ← take
  if ← atSymbol ".*" then
    let star ← take
    let closing ← expectSymbol ")"
    return node "WildcardPortList" [opening, star, closing]
  else if ← atPlainPorts then
    let inner ← itemsOne
      ⟨",", fun l => l.cls = .identifier || [".", "\x7b", ","].any l.isSymbol, endsParentheses,
        "port"⟩ plainPort
    let closing ← expectSymbol ")"
    return nodeWith "NonAnsiPortList" [("ports", 1)] [opening, inner, closing]
  else
    let inner ← items ⟨",", startsPort, endsParentheses, "port"⟩ declaredPort
    let closing ← expectSymbol ")"
    return nodeWith "AnsiPortList" [("ports", 1)] [opening, inner, closing]

end HdlLint.Verilog.Parser
