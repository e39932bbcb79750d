import HdlLint.Verilog.Grammar.Routine
import HdlLint.Verilog.Grammar.Scope

/-!
# Classes

Classes with their members: properties, methods and constraints.
-/

namespace HdlLint.Verilog.Parser

/-- A constraint without its expression set, or with one in braces. -/
def constraintSet : Parser Tree := do
  if ← atSymbol "\x7b" then constraintBlock else parse .constraintItem

/-- A weighted value. -/
def weightedValue : Parser Tree := do
  let value ← if ← atKeyword "default" then take else valueRange
  if ← atSymbols [":=", ":/"] then
    let operator ← take
    let weight ← expression
    return node "DistItem" [value, operator, weight]
  else return node "DistItem" [value]

/-- An expression that may have weights. -/
def constraintExpression : Parser Tree := do
  let value ← expressionAt 2
  if ← atKeyword "dist" then
    let word ← take
    let opening ← expectSymbol "\x7b"
    let values ← itemsOne ⟨",", fun l => startsRange l || l.isKeyword "default", endsBraces,
      "weight"⟩ weightedValue
    let closing ← expectSymbol "\x7d"
    return node "ExpressionOrDist" [value, word, opening, values, closing]
  else return value

/-- Reads an item of a constraint. -/
def constraintItem : Parser Tree := do
  let l ← peek
  match if l.cls = .keyword then l.raw else "" with
  | "solve" =>
    let word ← take
    let before ← itemsOne ⟨",", startsExpression, fun l => l.isKeyword "before" ||
      endsDeclaration l, "expression"⟩ expression
    let beforeWord ← expectKeyword "before"
    let after ← itemsOne ⟨",", startsExpression, endsDeclaration, "expression"⟩ expression
    let semi ← expectSymbol ";"
    return node "SolveBeforeConstraint" [word, before, beforeWord, after, semi]
  | "disable" =>
    let word ← take
    let soft ← expectKeyword "soft"
    let value ← expression
    let semi ← expectSymbol ";"
    return node "DisableConstraint" [word, soft, value, semi]
  | "soft" =>
    let word ← take
    let value ← constraintExpression
    let semi ← expectSymbol ";"
    return node "ExpressionConstraint" [word, value, semi]
  | "foreach" =>
    let word ← take
    let names ← arrayVariables
    let inner ← constraintSet
    return node "LoopConstraint" [word, names, inner]
  | "if" =>
    let word ← take
    let opening ← expectSymbol "("
    let value ← expression
    let closing ← expectSymbol ")"
    let inner ← constraintSet
    let other ←
      if ← atKeyword "else" then do
        let other ← take
        let inner ← constraintSet
        pure (node "ElseConstraintClause" [other, inner])
      else pure .absent
    return node "ConditionalConstraint" [word, opening, value, closing, inner, other]
  | "unique" =>
    let word ← take
    let ranges ← rangeList
    let semi ← expectSymbol ";"
    return node "UniquenessConstraint" [word, ranges, semi]
  | _ =>
    if l.isSymbol ";" then return node "EmptyConstraint" [← take]
    let value ← constraintExpression
    if ← atSymbol "->" then
      let arrow ← take
      let inner ← constraintSet
      return node "ImplicationConstraint" [value, arrow, inner]
    else
      let semi ← expectSymbol ";"
      return node "ExpressionConstraint" [value, semi]

/-- A constraint, whole or declared only. -/
def constraintDeclaration (front : List Tree) : Parser Tree := do
  let word ← take
  let name ← routineName
  if ← atSymbol ";" then return node "ConstraintPrototype" (front ++ [word, name, ← take])
  else return node "ConstraintDeclaration" (front ++ [word, name, ← constraintBlock])

/-- A class. -/
def classDeclaration (attrs virtual_ : Tree) : Parser Tree := do
  let word ← take
  let lifetime ← optionalKeywords ["static", "automatic"]
  let name ← expectName
  let parameters ← parameterPorts
  let base ←
    if ← atKeyword "extends" then do
      let extendsWord ← take
      let parent ← typeName
      let arguments ← if ← atSymbol "(" then argumentList else pure .absent
      pure (node "ExtendsClause" [extendsWord, parent, arguments])
    else pure .absent
  let interfaces ←
    if ← atKeyword "implements" then do
      let implementsWord ← take
      let names ← itemsOne ⟨",", fun l => l.cls = .identifier, endsDeclaration, "name"⟩ typeName
      pure (node "ImplementsClause" [implementsWord, names])
    else pure .absent
  let semi ← expectSymbol ";"
  let inner ← many do
    let l ← peek
    if l.cls = .endOfFile || l.isKeyword "endclass" then return none
    if isCloser l then misplaced (.unexpected "end")
    let member ← parse .classMember
    if !member.isPresent then fail (.expected "member") l.start
    return some member
  let stop ← expectKeyword "endclass"
  let stopName ← blockName
  checkNames (match name with
    | .token t => some t
    | _ => none) stopName
  return node "ClassDeclaration"
    [attrs, virtual_, word, lifetime, name, parameters, base, interfaces, semi, list inner, stop,
      stopName]

/-- The words in front of a member of a class. -/
def memberWords : List String :=
  ["static", "protected", "local", "rand", "randc", "const", "virtual", "pure", "extern",
    "automatic", "var"]

/-- Reads a member of a class. -/
def classMember : Parser Tree := do
  let attrs ← attributes
  let l ← peek
  if l.isKeyword "virtual" && !((← peekAt 1).cls = .keyword &&
      (["class", "function", "task", "protected", "local", "static"].contains (← peekAt 1).raw))
  then return node "ClassPropertyDeclaration" [list [], ← declaration attrs]
  if l.isSymbol ";" then return node "EmptyMember" [attrs, node "TokenList" [], ← take]
  let words ← manyWhile (do
    let l ← peek
    let next ← peekAt 1
    return l.cls = .keyword && memberWords.contains l.raw &&
      !(l.raw == "virtual" && next.cls = .identifier)) take
  let onlyDeclared := words.any fun
    | .token t => t.raw == "pure" || t.raw == "extern"
    | _ => false
  let l ← peek
  match if l.cls = .keyword then l.raw else "" with
  | "function" | "task" =>
    if onlyDeclared then
      let header ← prototype
      let semi ← expectSymbol ";"
      return node "ClassMethodPrototype" [attrs, node "TokenList" words, header, semi]
    else
      let inner ← routine (list [])
      return node "ClassMethodDeclaration" [attrs, node "TokenList" words, inner]
  | "constraint" => constraintDeclaration [attrs, node "TokenList" words]
  | "class" => classDeclaration attrs (node "TokenList" words)
  | "covergroup" =>
    let inner ← unread "CovergroupDeclaration" attrs "endgroup"
    return inner
  | _ =>
    if words.length ≠ 0 then
      let type ← parse (.dataType false)
      let names ← declarators
      let semi ← expectSymbol ";"
      return node "ClassPropertyDeclaration"
        [attrs, node "TokenList" words, node "DataDeclaration" [type, names, semi]]
    else if ← atDeclaration then
      return node "ClassPropertyDeclaration" [list [], ← declaration attrs]
    else return .absent

end HdlLint.Verilog.Parser
