import HdlLint.Verilog.Grammar.Scope

/-!
# Generate constructs

Members that are there under a condition, once for each value of a variable, or in a region
between `generate` and `endgenerate`; and the blocks that hold them.
-/

namespace HdlLint.Verilog.Parser

/-- A member, or a block of members with an optional name, of a generate construct. -/
def generateBlock : Parser Tree := do
  let labelled := (← atClass .identifier) && (← peekAt 1).isSymbol ":" &&
    (← peekAt 2).isKeyword "begin"
  if !labelled && !(← atKeyword "begin") then
    let l ← peek
    let member ← if isCloser l then pure .absent else parse (.member .generate)
    if !member.isPresent then fail (.expected "member") l.start
    checkAllowed .generate member
    return member
  else
    let label ←
      if labelled then do
        let name ← take
        let colon ← take
        pure (node "NamedLabel" [name, colon])
      else pure .absent
    let word ← take
    let name ← blockName
    let inner ← members .generate fun l => l.isKeyword "end"
    let stop ← expectKeyword "end"
    let stopName ← blockName
    let first := match name with
      | .absent => firstToken? label
      | _ => lastToken? name
    checkNames first stopName
    return nodeWith "GenerateBlock" [("label", 1), ("beginName", 3)]
      [list [], label, word, name, inner, stop, stopName]

/-- A conditional generate construct. -/
def ifGenerate (attrs : Tree) : Parser Tree := do
  let word ← take
  let opening ← expectSymbol "("
  let condition ← expression
  let closing ← expectSymbol ")"
  let inner ← parse .generateBlock
  let other ←
    if ← atKeyword "else" then do
      let other ← take
      let branch ← parse .generateBlock
      pure (nodeWith "ElseClause" [("elseKeyword", 0), ("clause", 1)] [other, branch])
    else pure .absent
  return nodeWith "IfGenerate" [("block", 5), ("elseClause", 6)]
    [attrs, word, opening, condition, closing, inner, other]

/-- A case of a generate construct. -/
def generateCase : Parser (Option Tree) := do
  if ← atKeyword "default" then return some (← defaultCase (parse .generateBlock))
  else if startsExpression (← peek) then
    let values ← caseValues startsExpression expression
    let colon ← expectSymbol ":"
    let inner ← parse .generateBlock
    return some (nodeWith "StandardCaseItem" [("clause", 2)] [values, colon, inner])
  else return none

/-- A selecting generate construct. -/
def caseGenerate (attrs : Tree) : Parser Tree := do
  let start := (← peek).start
  let word ← take
  let opening ← expectSymbol "("
  let value ← expression
  let closing ← expectSymbol ")"
  let cases ← many generateCase
  if cases = [] then fail (.expected "case") start
  let stop ← expectKeyword "endcase"
  return node "CaseGenerate" [attrs, word, opening, value, closing, list cases, stop]

/-- A repeating generate construct. -/
def loopGenerate (attrs : Tree) : Parser Tree := do
  let word ← take
  let opening ← expectSymbol "("
  let genvar ← optionalKeyword "genvar"
  let name ← expectName
  let equals ← expectSymbol "="
  let start ← expression
  let semi ← expectSymbol ";"
  let stop ← expression
  let semi' ← expectSymbol ";"
  let step ← parse .assignment
  let closing ← expectSymbol ")"
  let inner ← parse .generateBlock
  return nodeWith "LoopGenerate" [("block", 12)]
    [attrs, word, opening, genvar, name, equals, start, semi, stop, semi', step, closing, inner]

/-- A region of generate constructs. -/
def generateRegion (attrs : Tree) : Parser Tree := do
  let word ← take
  let inner ← members .generate fun l => l.isKeyword "endgenerate"
  let stop ← expectKeyword "endgenerate"
  return node "GenerateRegion" [attrs, word, inner, stop]

end HdlLint.Verilog.Parser
