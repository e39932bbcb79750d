import HdlLint.Verilog.Grammar.Expression

/-!
# Timing controls

Events and delays that a statement waits for, and the assignments that may hold them.
-/

namespace HdlLint.Verilog.Parser

/-- An event: an edge of a signal, or its change, with an optional condition. -/
def eventTerm : Parser Tree := do
  let edge ← optionalKeywords ["posedge", "negedge", "edge"]
  let signal ← expression
  if ← atKeyword "iff" then
    let word ← take
    let condition ← expression
    return node "SignalEventExpression" [edge, signal, node "IffEventClause" [word, condition]]
  else return node "SignalEventExpression" [edge, signal, .absent]

/-- Reads further events, joined by commas or the word `or`. -/
def moreEvents (left : Tree) : Nat → Parser Tree
  | 0 => return left
  | count + 1 => do
    if (← atSymbol ",") || (← atKeyword "or") then
      let operator ← take
      let right ← eventTerm
      moreEvents (node "BinaryEventExpression" [left, operator, right]) count
    else return left

/-- An event control. -/
def eventControl : Parser Tree := do
  let sign ← take
  if ← atSymbols ["*", "(*)"] then
    return node "ImplicitEventControl" [sign, ← take]
  else if ← atSymbol "(*" then
    let opening ← take
    let closing ← expectSymbol ")"
    return node "ImplicitEventControl" [sign, opening, closing]
  else if ← atSymbol "(" then
    if ["*", "*)"].any (← peekAt 1).isSymbol then
      let opening ← take
      let star ← take
      let closing ← if star.tokenKind? = some ⟨"*)"⟩ then pure .absent else expectSymbol ")"
      return node "ImplicitEventControl" [sign, opening, star, closing]
    else
      let opening ← take
      let first ← eventTerm
      let events ← moreEvents first (← itemLimit)
      let closing ← expectSymbol ")"
      return node "EventControlWithExpression"
        [sign, node "ParenthesizedEventExpression" [opening, events, closing]]
  else
    let name ← parse .operand
    return node "EventControl" [sign, name]

/-- A delay. -/
def delay : Parser Tree := do
  let hash ← take
  let value ←
    if ← atSymbol "(" then parenthesized
    else if startsExpression (← peek) then do
      let (value, _) ← primary
      pure value
    else missing "delay"
  return node "DelayControl" [hash, value]

/-- Delays of up to three transitions. -/
def transitionDelay : Parser Tree := do
  if (← peekAt 1).isSymbol "(" then
    let hash ← take
    let opening ← take
    let values ← itemsOne ⟨",", startsExpression, endsParentheses, "delay"⟩ threeValues
    let closing ← expectSymbol ")"
    return node "Delay3" [hash, opening, values, closing]
  else delay

/-- Whether a timing control is next. -/
def atTiming : Parser Bool :=
  atSymbols ["#", "##", "@", "@@"]

/-- A timing control. -/
def timingControl : Parser Tree := do
  if ← atSymbols ["#", "##"] then delay else eventControl

/-- The timing control between an assignment and its value. -/
def assignmentTiming : Parser Tree := do
  if ← atTiming then timingControl
  else if ← atKeyword "repeat" then
    let word ← take
    let times ← if ← atSymbol "(" then parenthesized else missing "("
    let control ← timingControl
    return node "RepeatedEventControl" [word, times, control]
  else return .absent

/-- Reads the value of an assignment, which may be an assignment again. -/
def assignedValue : Parser Tree := do
  let timing ← assignmentTiming
  let value ← expression
  return match timing with
    | .absent => value
    | _ => node "TimingControlExpression" [timing, value]

/-- Reads an assignment, which need not block, or an expression that is none. -/
def assignmentExpression : Parser Tree := do
  let left ← parse .operand
  if ← atSymbol "<=" then
    let operator ← take
    let attrs ← attributes
    let value ← assignedValue
    return node "NonblockingAssignmentExpression" [left, operator, attrs, value]
  else operators 0 left (← itemLimit)

end HdlLint.Verilog.Parser
