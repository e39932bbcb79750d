import HdlLint.Verilog.Grammar.Declaration

/-!
# Statements

Statements of procedures: blocks, conditionals, selections, loops, assertions and the rest. A
statement has a label, attributes and its own text; where a lone semicolon is no statement,
`Goal.statement false` refuses it.
-/

namespace HdlLint.Verilog.Parser

/-- A statement behind others, which may be empty. -/
def anyStatement : Parser Tree :=
  parse (.statement true)

/-- The words that check the cases of a statement. -/
def checkWords : List String :=
  ["unique", "unique0", "priority"]

/-- The words that select among cases. -/
def caseWords : List String :=
  ["case", "casex", "casez"]

/-- An else branch. The words that check cases belong to the first `if` of a chain only. -/
def elseBranch : Parser Tree := do
  if !(← atKeyword "else") then return .absent
  let word ← take
  if (← atKeywords checkWords) && (← peekAt 1).isKeyword "if" then
    misplaced (.unexpected "check of cases")
  let inner ← anyStatement
  return nodeWith "ElseClause" [("elseKeyword", 0), ("clause", 1)] [word, inner]

/-- One condition, with a pattern that it matches. -/
def condition : Parser Tree := do
  let value ← expression
  if ← atKeyword "matches" then
    let word ← take
    let matched ← parse .pattern
    return node "ConditionalPattern" [value, node "MatchesClause" [word, matched]]
  else return node "ConditionalPattern" [value, .absent]

/-- The conditions of an `if`. -/
def predicate : Parser Tree := do
  let inner ← itemsOne
    ⟨"&&&", startsExpression, fun l => l.isKeyword "begin" || l.isSymbol "?" || endsParentheses l,
      "condition"⟩ condition
  return node "ConditionalPredicate" [inner]

/-- An `if` statement. -/
def conditional (label attrs check : Tree) : Parser Tree := do
  let word ← take
  let opening ← expectSymbol "("
  let conditions ← predicate
  let closing ← expectSymbol ")"
  let inner ← anyStatement
  let other ← elseBranch
  return nodeWith "ConditionalStatement" [("uniqueOrPriority", 2), ("elseClause", 8)]
    [label, attrs, check, word, opening, conditions, closing, inner, other]

/-- The values of a case, up to their colon. -/
def caseValues (starts : Lexeme → Bool) (value : Parser Tree) : Parser Tree :=
  itemsOne ⟨",", starts, fun l => l.isSymbol ":" || endsDeclaration l, "case"⟩ value

/-- A case that stands for all others. -/
def defaultCase (inner : Parser Tree) : Parser Tree := do
  let word ← take
  let colon ← optionalSymbol ":"
  let clause ← inner
  return nodeWith "DefaultCaseItem" [("clause", 2)] [word, colon, clause]

/-- A case with its values, of which `mode` is the word behind the selected value. -/
def caseItem (mode : String) : Parser (Option Tree) := do
  let l ← peek
  if l.isKeyword "default" then return some (← defaultCase anyStatement)
  else match mode with
  | "inside" =>
    if !startsRange l then return none
    let values ← caseValues startsRange valueRange
    let colon ← expectSymbol ":"
    let inner ← anyStatement
    return some (nodeWith "StandardCaseItem" [("clause", 2)] [values, colon, inner])
  | "matches" =>
    if !(startsExpression l || l.isSymbol "." || l.isSymbol ".*") then return none
    let matched ← parse .pattern
    let joint ← if ← atSymbol "&&&" then do
        let operator ← take
        let condition ← expression
        pure (node "PatternCondition" [operator, condition])
      else pure .absent
    let colon ← expectSymbol ":"
    let inner ← anyStatement
    return some (nodeWith "PatternCaseItem" [("statement", 3)] [matched, joint, colon, inner])
  | _ =>
    if !startsExpression l then return none
    let values ← caseValues startsExpression expression
    let colon ← expectSymbol ":"
    let inner ← anyStatement
    return some (nodeWith "StandardCaseItem" [("clause", 2)] [values, colon, inner])

/-- A `case` statement. -/
def caseStatement (label attrs check : Tree) : Parser Tree := do
  let start := (← peek).start
  let word ← take
  let opening ← expectSymbol "("
  let value ← expression
  let closing ← expectSymbol ")"
  let mode := (← peek).raw
  let modeWord ← optionalKeywords ["inside", "matches"]
  let cases ← many (caseItem mode)
  if cases = [] then fail (.expected "case") start
  let stop ← expectKeyword "endcase"
  return nodeWith "CaseStatement" [("uniqueOrPriority", 2)]
    [label, attrs, check, word, opening, value, closing, modeWord, list cases, stop]

/-- The items of a block up to its end. -/
def blockItems : Parser Tree := do
  return list (← many do
    let l ← peek
    if l.cls = .endOfFile || isEndKeyword l then return none
    else return some (← parse .blockItem))

/-- A block between two words. -/
def block (kind : String) (label attrs : Tree) (stops : List String) : Parser Tree := do
  let start ← take
  let name ← blockName
  let items ← blockItems
  let stop ← if ← atKeywords stops then take else missing (stops.headD "end")
  let stopName ← blockName
  let first := match name with
    | .absent => firstToken? label
    | _ => lastToken? name
  checkNames first stopName
  return node kind [label, attrs, start, name, items, stop, stopName]

/-- A variable of a `for` loop. -/
def loopVariable : Parser Tree := do
  let var ← optionalKeyword "var"
  let type ← if (← atDeclaration) || (← atKeywords typeKeywords) then parse (.dataType false)
    else pure .absent
  let name ← declarator
  return node "ForVariableDeclaration" [var, type, name]

/-- The first part of a `for` loop: variables, assignments, or nothing. -/
def loopStart : Parser Tree := do
  if ← atSymbol ";" then return separated []
  else if (← atKeyword "var") || (← atDeclaration) then
    itemsOne ⟨",", fun l => l.cls = .identifier || (l.cls = .keyword &&
        (typeKeywords.contains l.raw || l.raw == "var")),
      endsDeclaration, "variable"⟩ loopVariable
  else itemsOne ⟨",", startsExpression, endsDeclaration, "expression"⟩ (parse .assignment)

/-- A `for` loop. -/
def forLoop (label attrs : Tree) : Parser Tree := do
  let word ← take
  let opening ← expectSymbol "("
  let start ← loopStart
  let semi ← expectSymbol ";"
  let stop ← if ← atSymbol ";" then pure .absent else expression
  let semi' ← expectSymbol ";"
  let steps ← items ⟨",", startsExpression, endsParentheses, "expression"⟩ (parse .assignment)
  let closing ← expectSymbol ")"
  let inner ← anyStatement
  return node "ForLoopStatement"
    [label, attrs, word, opening, start, semi, stop, semi', steps, closing, inner]

/-- The name of an array in a `foreach` loop: all but its last brackets. -/
def loopArray : Parser Tree := do
  let first ← if ← atKeywords ["this", "super"] then take else expectName
  rest (node "IdentifierName" [first]) (← itemLimit)
where
  /-- What follows the first name. -/
  rest (left : Tree) : Nat → Parser Tree
    | 0 => return left
    | count + 1 => do
      if ← atSymbols [".", "::"] then
        let separator ← take
        let name ← expectName
        rest (node "ScopedName" [left, separator, node "IdentifierName" [name]]) count
      else if ← atSymbol "[" then
        match ← scanPair "[" "]" 0 (← itemLimit) 1 with
        | some distance =>
          if ["[", "."].any (← peekAt distance).isSymbol then
            let select ← elementSelect
            rest (node "ElementSelectExpression" [left, select]) count
          else return left
        | none => return left
      else return left

/-- The variable of a `foreach` loop, or nothing. -/
def arrayVariable : Parser Tree := do
  if ← atClass .identifier then return node "IdentifierName" [← take]
  else return node "EmptyIdentifierName" [placeholder]

/-- The array and the variables of a `foreach` loop. -/
def arrayVariables : Parser Tree := do
  let opening ← expectSymbol "("
  let array ← loopArray
  let bracket ← expectSymbol "["
  let names ← items
    ⟨",", fun l => l.cls = .identifier || l.isSymbol ",", endsBrackets, "variable"⟩ arrayVariable
  let bracket' ← expectSymbol "]"
  let closing ← expectSymbol ")"
  return node "ForeachLoopList" [opening, array, bracket, names, bracket', closing]

/-- What follows an assertion: a statement, an else branch, or both. -/
def actionBlock : Parser Tree := do
  let inner ← if ← atKeyword "else" then pure .absent else anyStatement
  let other ←
    if ← atKeyword "else" then do
      let word ← take
      let inner ← anyStatement
      pure (nodeWith "ElseClause" [("elseKeyword", 0), ("clause", 1)] [word, inner])
    else pure .absent
  return node "ActionBlock" [inner, other]

/-- A property with its clock and its disabling condition. -/
def propertySpec : Parser Tree := do
  let clock ← if ← atSymbol "@" then timingControl else pure .absent
  let disable ←
    if ← atKeyword "disable" then do
      let word ← take
      let iff ← expectKeyword "iff"
      let condition ← if ← atSymbol "(" then parenthesized else missing "("
      pure (node "DisableIff" [word, iff, condition])
    else pure .absent
  let inner ← parse .property
  return node "PropertySpec" [clock, disable, inner]

/-- An assertion, immediate or concurrent. -/
def assertion (label attrs : Tree) : Parser Tree := do
  let word ← take
  if word.tokenKind? = some ⟨"ExpectKeyword"⟩ then
    let opening ← expectSymbol "("
    let spec ← propertySpec
    let closing ← expectSymbol ")"
    let action ← actionBlock
    return node "ExpectPropertyStatement" [label, attrs, word, opening, spec, closing, action]
  else if ← atKeywords ["property", "sequence"] then
    let kind ← take
    let opening ← expectSymbol "("
    let spec ← propertySpec
    let closing ← expectSymbol ")"
    let action ← actionBlock
    return node "AssertPropertyStatement" [label, attrs, word, kind, opening, spec, closing, action]
  else
    let deferred ←
      if ← atSymbol "#" then do
        let hash ← take
        let zero ← if ← atClass .integer then take else missing "0"
        pure (node "DeferredAssertion" [hash, zero])
      else if ← atKeyword "final" then do
        pure (node "DeferredAssertion" [← take])
      else pure .absent
    let condition ← if ← atSymbol "(" then parenthesized else missing "("
    let action ← actionBlock
    return node "ImmediateAssertStatement" [label, attrs, word, deferred, condition, action]

/-- A weighted case of a random selection. -/
def randomCase : Parser (Option Tree) := do
  if !startsExpression (← peek) then return none
  let weight ← expression
  let colon ← expectSymbol ":"
  let inner ← anyStatement
  return some (node "RandCaseItem" [weight, colon, inner])

/-- A random selection. -/
def randomSelection (label attrs : Tree) : Parser Tree := do
  let word ← take
  let cases ← many randomCase
  let stop ← expectKeyword "endcase"
  return node "RandCaseStatement" [label, attrs, word, list cases, stop]

/-- The statement of a `wait`. -/
def waitStatement (label attrs : Tree) : Parser Tree := do
  let word ← take
  if ← atKeyword "fork" then
    let fork ← take
    let semi ← expectSymbol ";"
    return node "WaitForkStatement" [label, attrs, word, fork, semi]
  else
    let condition ← if ← atSymbol "(" then parenthesized else missing "("
    let inner ← anyStatement
    return node "WaitStatement" [label, attrs, word, condition, inner]

/-- The call of a function whose result is dropped. -/
def voidCall (label attrs : Tree) : Parser Tree := do
  let word ← take
  let apostrophe ← expectSymbol "'"
  let inner ← if ← atSymbol "(" then parenthesized else missing "("
  let semi ← expectSymbol ";"
  return node "VoidCastedCallStatement" [label, attrs, word, apostrophe, inner, semi]

/-- A statement that starts with a keyword, if the keyword starts one. -/
def keywordStatement (label attrs : Tree) (l : Lexeme) : Parser (Option Tree) := do
  match l.raw with
  | "unique" | "unique0" | "priority" =>
    let check ← take
    if ← atKeyword "if" then some <$> conditional label attrs check
    else if ← atKeywords caseWords then some <$> caseStatement label attrs check
    else misplaced (.expected "'if' or 'case'")
  | "if" => some <$> conditional label attrs .absent
  | "case" | "casex" | "casez" => some <$> caseStatement label attrs .absent
  | "begin" => some <$> block "SequentialBlockStatement" label attrs ["end"]
  | "fork" =>
    some <$> block "ParallelBlockStatement" label attrs ["join", "join_any", "join_none"]
  | "forever" =>
    let word ← take
    let inner ← anyStatement
    return some (node "ForeverStatement" [label, attrs, word, inner])
  | "repeat" | "while" =>
    let word ← take
    let opening ← expectSymbol "("
    let value ← expression
    let closing ← expectSymbol ")"
    let inner ← anyStatement
    return some (node "LoopStatement" [label, attrs, word, opening, value, closing, inner])
  | "do" =>
    let word ← take
    let inner ← anyStatement
    let loop ← expectKeyword "while"
    let opening ← expectSymbol "("
    let value ← expression
    let closing ← expectSymbol ")"
    let semi ← expectSymbol ";"
    return some (node "DoWhileStatement"
      [label, attrs, word, inner, loop, opening, value, closing, semi])
  | "for" => some <$> forLoop label attrs
  | "foreach" =>
    let word ← take
    let names ← arrayVariables
    let inner ← parse (.statement false)
    return some (node "ForeachLoopStatement" [label, attrs, word, names, inner])
  | "return" =>
    let word ← take
    let value ← if ← atSymbol ";" then pure .absent else expression
    let semi ← expectSymbol ";"
    return some (node "ReturnStatement" [label, attrs, word, value, semi])
  | "break" | "continue" =>
    let word ← take
    let semi ← expectSymbol ";"
    return some (node "JumpStatement" [label, attrs, word, semi])
  | "disable" =>
    let word ← take
    let target ← if ← atKeyword "fork" then take else expression
    let semi ← expectSymbol ";"
    return some (node "DisableStatement" [label, attrs, word, target, semi])
  | "assert" | "assume" | "cover" | "restrict" | "expect" => some <$> assertion label attrs
  | "wait" => some <$> waitStatement label attrs
  | "wait_order" =>
    let word ← take
    let names ← if ← atSymbol "(" then argumentList else missing "("
    let action ← actionBlock
    return some (node "WaitOrderStatement" [label, attrs, word, names, action])
  | "randcase" => some <$> randomSelection label attrs
  | "randsequence" =>
    let inner ← manyWhile (do
      let l ← peek
      return !(l.cls = .endOfFile || l.isKeyword "endsequence")) take
    let stop ← expectKeyword "endsequence"
    return some (node "RandSequenceStatement" [label, attrs, list inner, stop])
  | "assign" | "force" =>
    let word ← take
    let value ← parse .assignment
    let semi ← expectSymbol ";"
    return some (node "ProceduralAssignStatement" [label, attrs, word, value, semi])
  | "deassign" | "release" =>
    let word ← take
    let target ← parse .operand
    let semi ← expectSymbol ";"
    return some (node "ProceduralDeassignStatement" [label, attrs, word, target, semi])
  | "void" => some <$> voidCall label attrs
  | _ => return none

/-- A statement behind its label and its attributes. -/
def labelledStatement (emptyAllowed : Bool) (label attrs : Tree) : Parser Tree := do
  let l ← peek
  if l.cls = .keyword then
    if let some t ← keywordStatement label attrs l then return t
  if l.isSymbol ";" then
    if label.isPresent || !emptyAllowed then misplaced (.expected "statement")
    return node "EmptyStatement" [label, attrs, ← take]
  else if ← atTiming then
    let timing ← timingControl
    let inner ← anyStatement
    return node "TimingControlStatement" [label, attrs, timing, inner]
  else if ["->", "->>"].any l.isSymbol then
    let arrow ← take
    let timing ← if ← atTiming then timingControl else pure .absent
    let name ← parse .operand
    let semi ← expectSymbol ";"
    return node "EventTriggerStatement" [label, attrs, arrow, timing, name, semi]
  else if startsExpression l then
    let value ← parse .assignment
    let semi ← expectSymbol ";"
    return node "ExpressionStatement" [label, attrs, value, semi]
  else misplaced (.expected "statement")

/-- Reads a statement. -/
def statement (emptyAllowed : Bool) : Parser Tree := do
  let label ←
    if (← atClass .identifier) && (← peekAt 1).isSymbol ":" then do
      let name ← take
      let colon ← take
      pure (node "NamedLabel" [name, colon])
    else pure .absent
  labelledStatement emptyAllowed label (← attributes)

/-- Reads an item of a block: a declaration or a statement. -/
def blockItem : Parser Tree := do
  let attributed ← atSymbol "(*"
  let attrs ← attributes
  if ← atPortDeclaration then portDeclaration attrs
  else if ← atDeclaration then declaration attrs
  else if attributed then labelledStatement true .absent attrs
  else anyStatement

end HdlLint.Verilog.Parser
