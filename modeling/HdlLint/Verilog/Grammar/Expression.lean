import HdlLint.Verilog.Grammar.Lookahead
import HdlLint.Verilog.Grammar.Operator

/-!
# Expressions

Expressions by the precedence of their operators, with calls and their arguments.
-/

namespace HdlLint.Verilog.Parser

/-- Reads any expression. -/
def expression : Parser Tree :=
  parse (.expression 0)

/-- A list of expressions in braces. -/
def bracedShape : ListShape :=
  ⟨",", startsExpression, endsBraces, "expression"⟩

/-- One attribute: a name with an optional value. -/
def attributeSpec : Parser Tree := do
  let name ← expectName
  if ← atSymbol "=" then
    let equals ← take
    let value ← expression
    return node "AttributeSpec" [name, node "EqualsValueClause" [equals, value]]
  else return node "AttributeSpec" [name]

/-- The attributes in front of a construct. -/
def attributes : Parser Tree := do
  let items ← many do
    if ← atSymbol "(*" then
      let opening ← take
      let specs ← itemsOne
        ⟨",", fun l => l.cls = .identifier, fun l => l.isSymbol "*)" || endsDeclaration l,
          "attribute"⟩ attributeSpec
      let closing ← expectSymbol "*)"
      return some (node "AttributeInstance" [opening, specs, closing])
    else return none
  return list items

/-- Whether a lexeme can be part of the digits of a number with a base. -/
def isDigits (l : Lexeme) : Bool :=
  [LexemeClass.integer, .identifier, .real, .time].contains l.cls || l.isSymbol "?"

/-- Checks the digits in a lexeme of a number. -/
def checkDigits (base : NumberBase) (l : Lexeme) : Parser Unit := do
  if let some n := base.firstBad? l.raw.toList then fail (.unexpected "digit") (l.start.along n)

/-- A number whose base is next, behind its size if it has one. -/
def basedNumber (size : List Tree) : Parser Tree := do
  let mark ← peek
  let base := NumberBase.ofMark mark.raw.toList
  let mark ← take
  let first ← peek
  if first.cls = .endOfFile then missing "digits"
  if !isDigits first then misplaced (.expected "digits")
  if first.raw.startsWith "_" then misplaced (.unexpected "underscore")
  checkDigits base first
  let first ← take
  let rest ← manyWhile (do let l ← peek; return isDigits l && l.trivia.isEmpty) do
    checkDigits base (← peek)
    take
  return node "IntegerVectorExpression" (size ++ [mark, first] ++ rest)

/-- A number that starts with an integer, which is its size if a base follows. -/
def integerOrBased : Parser Tree := do
  let l ← peek
  let size ← take
  if ← atClass .base then
    match (l.raw.toList.filter (· ≠ '_')).dropWhile (· = '0') with
    | [] => fail (.unexpected "size of zero") l.start
    | _ => basedNumber [size]
  else return node "IntegerLiteralExpression" [size]

/-- The expression in the brackets of a selection. -/
def selector : Parser Tree := do
  let first ← expression
  if ← atSymbols [":", "+:", "-:"] then
    let operator ← take
    let second ← expression
    return node "RangeSelect" [first, operator, second]
  else return node "BitSelect" [first]

/-- A selection in brackets. -/
def elementSelect : Parser Tree := do
  let opening ← take
  let inner ← if ← atSymbol "]" then pure .absent else selector
  let closing ← expectSymbol "]"
  return node "ElementSelect" [opening, inner, closing]

/-- One argument of a call. -/
def argument : Parser Tree := do
  if ← atSymbols [",", ")"] then return node "EmptyArgument" [placeholder]
  else if ← atSymbol "." then
    let dot ← take
    let name ← expectName
    let opening ← expectSymbol "("
    let value ← if ← atSymbol ")" then pure .absent else parse .property
    let closing ← expectSymbol ")"
    return node "NamedArgument" [dot, name, opening, value, closing]
  else
    let value ← parse .property
    return node "OrderedArgument" [value]

/-- The arguments of a call in parentheses. -/
def argumentList : Parser Tree := do
  let opening ← take
  let arguments ← items
    ⟨",", fun l => startsProperty l || l.isSymbol "." || l.isSymbol ",", endsParentheses,
      "argument"⟩ argument
  let closing ← expectSymbol ")"
  return node "ArgumentList" [opening, arguments, closing]

/-- One parameter of a type or an instance. -/
def parameterAssignment : Parser Tree := do
  if ← atSymbol "." then
    let dot ← take
    let name ← expectName
    let opening ← expectSymbol "("
    let value ← if ← atSymbol ")" then pure .absent else expression
    let closing ← expectSymbol ")"
    return node "NamedParamAssignment" [dot, name, opening, value, closing]
  else
    let value ← expression
    return node "OrderedParamAssignment" [value]

/-- Parameters in parentheses behind a hash. -/
def parameterAssignments : Parser Tree := do
  let hash ← take
  let opening ← expectSymbol "("
  let parameters ← items
    ⟨",", fun l => startsExpression l || l.isSymbol ".", endsParentheses, "parameter"⟩
    parameterAssignment
  let closing ← expectSymbol ")"
  return node "ParameterValueAssignment" [hash, opening, parameters, closing]

/-- A value, or a range of values in brackets. -/
def valueRange : Parser Tree := do
  if ← atSymbol "[" then
    let opening ← take
    let low ← expression
    let operator ← if ← atSymbols ["+/-", "+%-"] then take else expectSymbol ":"
    let high ← expression
    let closing ← expectSymbol "]"
    return node "ValueRangeExpression" [opening, low, operator, high, closing]
  else expression

/-- Whether a lexeme can start a value range. -/
def startsRange (l : Lexeme) : Bool :=
  startsExpression l || l.isSymbol "["

/-- Ranges of values in braces. -/
def rangeList : Parser Tree := do
  let opening ← expectSymbol "\x7b"
  let ranges ← itemsOne ⟨",", startsRange, endsBraces, "value range"⟩ valueRange
  let closing ← expectSymbol "\x7d"
  return node "RangeList" [opening, ranges, closing]

/-- One part of a stream. -/
def streamExpression : Parser Tree := do
  let value ← expression
  if ← atKeyword "with" then
    let word ← take
    let select ← if ← atSymbol "[" then elementSelect else missing "["
    return node "StreamExpression" [value, node "StreamExpressionWithRange" [word, select]]
  else return node "StreamExpression" [value]

/-- An expression in braces: a concatenation, a replication, a stream, or an empty queue. -/
def bracedExpression : Parser Tree := do
  let opening ← take
  if ← atSymbol "\x7d" then
    let closing ← take
    return node "EmptyQueueExpression" [opening, closing]
  else if ← atSymbols ["<<", ">>"] then
    let operator ← take
    let size ← if ← atSymbol "\x7b" then pure .absent else expression
    let inner ← expectSymbol "\x7b"
    let parts ← itemsOne bracedShape streamExpression
    let innerEnd ← expectSymbol "\x7d"
    let closing ← expectSymbol "\x7d"
    return node "StreamingConcatenationExpression"
      [opening, operator, size, inner, parts, innerEnd, closing]
  else
    let first ← expression
    if ← atSymbol "\x7b" then
      let inner ← take
      let parts ← itemsOne bracedShape expression
      let innerEnd ← expectSymbol "\x7d"
      let closing ← expectSymbol "\x7d"
      return node "MultipleConcatenationExpression"
        [opening, first, node "ConcatenationExpression" [inner, parts, innerEnd], closing]
    else
      let rest ← moreItems bracedShape expression (← itemLimit)
      let closing ← expectSymbol "\x7d"
      return node "ConcatenationExpression" [opening, separated (first :: rest), closing]

/-- One item of an assignment pattern: a value, or a key with a value. -/
def patternItem : Parser Tree := do
  let key ← if ← atKeyword "default" then take else expression
  if ← atSymbol ":" then
    let colon ← take
    let value ← expression
    return node "AssignmentPatternItem" [key, colon, value]
  else if ← atSymbol "\x7b" then
    let opening ← take
    let parts ← itemsOne bracedShape expression
    let closing ← expectSymbol "\x7d"
    return node "ReplicatedAssignmentPattern" [key, opening, parts, closing]
  else return key

/-- An assignment pattern. -/
def assignmentPattern (type : Tree) : Parser Tree := do
  let opening ← take
  let parts ← items
    ⟨",", fun l => startsExpression l || l.isKeyword "default", endsBraces, "pattern"⟩ patternItem
  let closing ← expectSymbol "\x7d"
  return node "AssignmentPatternExpression" [type, opening, parts, closing]

/-- One value, or three for the least, the usual and the greatest case. -/
def threeValues : Parser Tree := do
  let value ← parse .assignment
  if ← atSymbol ":" then
    let colon ← take
    let usual ← expression
    let colon' ← expectSymbol ":"
    let greatest ← expression
    return node "MinTypMaxExpression" [value, colon, usual, colon', greatest]
  else return value

/-- An expression in parentheses. -/
def parenthesized : Parser Tree := do
  let opening ← take
  let inner ← threeValues
  let closing ← expectSymbol ")"
  return node "ParenthesizedExpression" [opening, inner, closing]

/-- The creation of an object or an array. -/
def newExpression : Parser Tree := do
  let word ← take
  if ← atSymbol "[" then
    let size ← elementSelect
    let source ← if ← atSymbol "(" then parenthesized else pure .absent
    return node "NewArrayExpression" [word, size, source]
  else if ← atSymbol "(" then
    let arguments ← argumentList
    return node "NewClassExpression" [word, arguments]
  else if startsExpression (← peek) then
    let source ← expression
    return node "CopyClassExpression" [word, source]
  else return node "NewClassExpression" [word]

/-- An expression that starts with a keyword. -/
def keywordExpression (l : Lexeme) : Parser Tree := do
  match l.raw with
  | "null" => return node "NullLiteralExpression" [← take]
  | "this" => return node "ThisHandle" [← take]
  | "super" => return node "SuperHandle" [← take]
  | "new" => newExpression
  | "tagged" =>
    let word ← take
    let name ← expectName
    let value ← if startsExpression (← peek) then parse .operand else pure .absent
    return node "TaggedUnionExpression" [word, name, value]
  | "local" => return node "LocalScope" [← take]
  | "signed" => return node "SignedType" [← take]
  | "unsigned" => return node "UnsignedType" [← take]
  | "const" => return node "ConstType" [← take]
  | _ => parse (.dataType false)

/-- An expression without operators behind it, and whether it can name something. -/
def primary : Parser (Tree × Bool) := do
  let l ← peek
  match l.cls with
  | .identifier => return (node "IdentifierName" [← take], true)
  | .systemName => return (node "SystemName" [← take], true)
  | .integer => return (← integerOrBased, false)
  | .base => return (← basedNumber [], false)
  | .real => return (node "RealLiteralExpression" [← take], false)
  | .time => return (node "TimeLiteralExpression" [← take], false)
  | .unsized => return (node "UnbasedUnsizedLiteralExpression" [← take], false)
  | .string => return (node "StringLiteralExpression" [← take], false)
  | .keyword =>
    if startsExpression l then return (← keywordExpression l, true)
    else misplaced (.expected "expression")
  | .symbol =>
    match l.raw with
    | "(" => return (← parenthesized, false)
    | "\x7b" => return (← bracedExpression, false)
    | "'\x7b" => return (← assignmentPattern .absent, false)
    | "$" => return (node "WildcardLiteralExpression" [← take], false)
    | _ => misplaced (.expected "expression")
  | _ => misplaced (.expected "expression")

/-- Constraints in braces. -/
def constraintBlock : Parser Tree := do
  let opening ← expectSymbol "\x7b"
  let inner ← manyWhile (do
    let l ← peek
    return !(l.isSymbol "\x7d" || l.cls = .endOfFile || isEndKeyword l)) (parse .constraintItem)
  let closing ← expectSymbol "\x7d"
  return node "ConstraintBlock" [opening, list inner, closing]

/-- What narrows the call of a method: arguments, constraints, or both. -/
def withClause (left : Tree) : Parser Tree := do
  let word ← take
  let arguments ← if ← atSymbol "(" then argumentList else pure .absent
  let constraints ←
    if !arguments.isPresent || (← atSymbol "\x7b") then constraintBlock else pure .absent
  return node "ArrayOrRandomizeMethodExpression" [left, word, arguments, constraints]

/-- Reads what stands behind an operand: members, selections, calls, casts and steps. -/
def postfixes (named : Bool) (left : Tree) : Nat → Parser Tree
  | 0 => return left
  | count + 1 => do
    let l ← peek
    if l.cls = .keyword then
      if l.raw == "with" && named && ["(", "\x7b"].any (← peekAt 1).isSymbol then
        postfixes named (← withClause left) count
      else return left
    else if l.cls ≠ .symbol then return left
    else match l.raw with
    | "." =>
      let dot ← take
      let member ←
        if ← atKeywords ["and", "or", "xor", "unique", "new"] then take else expectName
      postfixes true
        (node "ScopedName" [left, dot, node "IdentifierName" [member]]) count
    | "::" =>
      if !named then return left
      let colons ← take
      let member ← if ← atKeyword "new" then take else expectName
      postfixes true
        (node "ScopedName" [left, colons, node "IdentifierName" [member]]) count
    | "#" =>
      if !named then return left
      match ← scanNameRest (← itemLimit) 0 with
      | some (distance + 1) =>
        if (← peekAt (distance + 1)).cls = .symbol && (← peekAt 1).isSymbol "(" then
          let parameters ← parameterAssignments
          postfixes true (node "ClassName" [left, parameters]) count
        else return left
      | _ => return left
    | "[" =>
      let inner ← peekAt 1
      if ["*", "=", "->"].any inner.isSymbol then return left
      let select ← elementSelect
      postfixes named (node "ElementSelectExpression" [left, select]) count
    | "(" =>
      if !named then return left
      let arguments ← argumentList
      postfixes true (node "InvocationExpression" [left, list [], arguments]) count
    | "(*" =>
      if !named then return left
      let attrs ← attributes
      let arguments ← if ← atSymbol "(" then argumentList else pure .absent
      postfixes true (node "InvocationExpression" [left, attrs, arguments]) count
    | "'" =>
      if (← peekAt 1).isSymbol "(" then
        let apostrophe ← take
        let inner ← parenthesized
        postfixes false (node "CastExpression" [left, apostrophe, inner]) count
      else return left
    | "'\x7b" =>
      if !named then return left
      let pattern ← assignmentPattern left
      postfixes false pattern count
    | "++" => return node "PostincrementExpression" [left, list [], ← take]
    | "--" => return node "PostdecrementExpression" [left, list [], ← take]
    | _ => return left

/-- Reads an operand: a primary with what stands around it. -/
def operand : Parser Tree := do
  if ← atSymbols unaryOperators then
    let operator ← take
    let attrs ← attributes
    let inner ← parse .operand
    return node "UnaryExpression" [operator, attrs, inner]
  else
    let (left, named) ← primary
    postfixes named left (← itemLimit)

/-- Reads the operators of a level and above behind a left operand. Assignments are of the lowest
level. -/
def operators (level : Nat) (left : Tree) : Nat → Parser Tree
  | 0 => return left
  | count + 1 => do
    let l ← peek
    if l.isKeyword "inside" && level ≤ insideLevel then
      let word ← take
      let ranges ← rangeList
      operators level (node "InsideExpression" [left, word, ranges]) count
    else if l.isSymbol "?" && level ≤ conditionalLevel then
      let question ← take
      let attrs ← attributes
      let yes ← parse (.expression conditionalLevel)
      let colon ← expectSymbol ":"
      let no ← parse (.expression conditionalLevel)
      operators level (node "ConditionalExpression" [left, question, attrs, yes, colon, no]) count
    else if level = 0 && l.cls = .symbol && assignmentOperators.contains l.raw then
      let operator ← take
      let attrs ← attributes
      let right ← parse .value
      operators level (node "AssignmentExpression" [left, operator, attrs, right]) count
    else match binaryOperator? l with
    | none => return left
    | some (own, kind) =>
      if own < level then return left
      let operator ← take
      let attrs ← attributes
      let right ← parse (.expression (if own = 1 then own else own + 1))
      operators level (node kind [left, operator, attrs, right]) count

/-- Reads an expression whose operators are of a level or above. -/
def expressionAt (level : Nat) : Parser Tree := do
  let left ← parse .operand
  operators level left (← itemLimit)

end HdlLint.Verilog.Parser
