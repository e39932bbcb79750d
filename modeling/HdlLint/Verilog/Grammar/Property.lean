import HdlLint.Verilog.Grammar.Timing

/-!
# Properties and patterns

Properties and sequences of assertions, and the patterns that a value may match.
-/

namespace HdlLint.Verilog.Parser

/-! ## Properties -/

/-- The words that take a property, behind a range for some of them. -/
def propertyWords : List String :=
  ["not", "nexttime", "s_nexttime", "always", "s_always", "eventually", "s_eventually"]

/-- The words that join properties. -/
def propertyJoins : List String :=
  ["or", "and", "intersect", "within", "throughout", "until", "s_until", "until_with",
    "s_until_with", "implies", "iff"]

/-- A range of a repetition or of a property's word, in brackets. -/
def repetition : Parser Tree := do
  let opening ← take
  let sign ← if ← atSymbols ["*", "=", "->", "+"] then take else pure .absent
  let inner ← if ← atSymbol "]" then pure .absent else selector
  let closing ← expectSymbol "]"
  return node "SequenceRepetition" [opening, sign, inner, closing]

/-- One item of a case property. -/
def propertyCaseItem : Parser (Option Tree) := do
  if ← atKeyword "default" then
    let word ← take
    let colon ← optionalSymbol ":"
    let value ← parse .property
    let semi ← optionalSymbol ";"
    return some (node "DefaultPropertyCaseItem" [word, colon, value, semi])
  else if startsExpression (← peek) then
    let values ← itemsOne
      ⟨",", startsExpression, fun l => l.isSymbol ":" || endsDeclaration l, "expression"⟩ expression
    let colon ← expectSymbol ":"
    let value ← parse .property
    let semi ← optionalSymbol ";"
    return some (node "StandardPropertyCaseItem" [values, colon, value, semi])
  else return none

/-- A property without joins. -/
def propertyTerm : Parser Tree := do
  let l ← peek
  if l.isSymbol "@" then
    let clock ← eventControl
    let inner ← if startsProperty (← peek) then parse .property else pure .absent
    return node "ClockingPropertyExpr" [clock, inner]
  else if l.isSymbol "##" then
    let sign ← take
    let gap ← if ← atSymbol "[" then repetition else do
      let (value, _) ← primary
      pure value
    let inner ← parse .property
    return node "DelayedSequenceExpr" [sign, gap, inner]
  else if l.cls = .keyword && propertyWords.contains l.raw then
    let word ← take
    let range ← if ← atSymbol "[" then repetition else pure .absent
    let inner ← parse .property
    return node "UnaryPropertyExpr" [word, range, inner]
  else if l.cls = .keyword && ["strong", "weak", "first_match"].contains l.raw then
    let word ← take
    let opening ← expectSymbol "("
    let inner ← parse .property
    let closing ← expectSymbol ")"
    return node "StrongWeakPropertyExpr" [word, opening, inner, closing]
  else if l.cls = .keyword &&
      ["accept_on", "reject_on", "sync_accept_on", "sync_reject_on"].contains l.raw then
    let word ← take
    let condition ← if ← atSymbol "(" then parenthesized else missing "("
    let inner ← parse .property
    return node "AcceptOnPropertyExpr" [word, condition, inner]
  else if l.isKeyword "if" then
    let word ← take
    let condition ← if ← atSymbol "(" then parenthesized else missing "("
    let yes ← parse .property
    if ← atKeyword "else" then
      let other ← take
      let no ← parse .property
      return node "ConditionalPropertyExpr"
        [word, condition, yes, node "ElsePropertyClause" [other, no]]
    else return node "ConditionalPropertyExpr" [word, condition, yes]
  else if l.isKeyword "case" then
    let word ← take
    let value ← if ← atSymbol "(" then parenthesized else missing "("
    let cases ← many propertyCaseItem
    let stop ← expectKeyword "endcase"
    return node "CasePropertyExpr" [word, value, list cases, stop]
  else if l.cls = .keyword && ["posedge", "negedge", "edge"].contains l.raw then eventTerm
  else
    let simple ←
      match ← attempt (if l.isSymbol "(" then expression else pure .absent) with
      | some .absent => expression
      | some t => pure t
      | none => do
        let opening ← take
        let inner ← parse .property
        let closing ← expectSymbol ")"
        pure (node "ParenthesizedPropertyExpr" [opening, inner, closing])
    let repeated ←
      if ← atSymbol "[" then repetition else pure .absent
    return node "SimplePropertyExpr" [node "SimpleSequenceExpr" [simple, repeated]]

/-- Reads further properties behind a left one. -/
def moreProperties (left : Tree) : Nat → Parser Tree
  | 0 => return left
  | count + 1 => do
    if ← atSymbol "##" then
      let sign ← take
      let gap ← if ← atSymbol "[" then repetition else do
        let (value, _) ← primary
        pure value
      let right ← propertyTerm
      moreProperties (node "DelayedSequenceExpr" [left, sign, gap, right]) count
    else if (← atSymbols ["|->", "|=>", "#-#", "#=#"]) || (← atKeywords propertyJoins) then
      let operator ← take
      let right ← propertyTerm
      moreProperties (node "BinaryPropertyExpr" [left, operator, right]) count
    else return left

/-- Reads a property. -/
def property : Parser Tree := do
  let left ← propertyTerm
  moreProperties left (← itemLimit)

/-! ## Patterns -/

/-- Reads a pattern. -/
def pattern : Parser Tree := do
  if ← atSymbol "." then
    let dot ← take
    let name ← expectName
    return node "VariablePattern" [dot, name]
  else if ← atSymbol ".*" then
    return node "WildcardPattern" [← take]
  else if ← atKeyword "tagged" then
    let word ← take
    let name ← expectName
    let l ← peek
    let inner ←
      if startsExpression l || l.isSymbol "." || l.isSymbol ".*" then parse .pattern
      else pure .absent
    return node "TaggedPattern" [word, name, inner]
  else
    let value ← expression
    return node "ExpressionPattern" [value]

end HdlLint.Verilog.Parser
