import HdlLint.Verilog.Lexeme

/-!
# Operators

The operators of expressions; of the binary ones, those of higher levels bind more tightly.
-/

namespace HdlLint.Verilog.Parser

/-- The level and the kind of a binary operator; operators of higher levels bind more tightly. -/
def binaryOperator? (l : Lexeme) : Option (Nat × String) :=
  if l.cls ≠ .symbol then none
  else match l.raw with
  | "->" => some (1, "LogicalImplicationExpression")
  | "<->" => some (1, "LogicalEquivalenceExpression")
  | "||" => some (3, "LogicalOrExpression")
  | "&&" => some (4, "LogicalAndExpression")
  | "|" => some (5, "BinaryOrExpression")
  | "^" => some (6, "BinaryXorExpression")
  | "~^" => some (6, "BinaryXnorExpression")
  | "^~" => some (6, "BinaryXnorExpression")
  | "&" => some (7, "BinaryAndExpression")
  | "==" => some (8, "EqualityExpression")
  | "!=" => some (8, "InequalityExpression")
  | "===" => some (8, "CaseEqualityExpression")
  | "!==" => some (8, "CaseInequalityExpression")
  | "==?" => some (8, "WildcardEqualityExpression")
  | "!=?" => some (8, "WildcardInequalityExpression")
  | "<" => some (9, "LessThanExpression")
  | "<=" => some (9, "LessThanEqualExpression")
  | ">" => some (9, "GreaterThanExpression")
  | ">=" => some (9, "GreaterThanEqualExpression")
  | "<<" => some (10, "LogicalShiftLeftExpression")
  | ">>" => some (10, "LogicalShiftRightExpression")
  | "<<<" => some (10, "ArithmeticShiftLeftExpression")
  | ">>>" => some (10, "ArithmeticShiftRightExpression")
  | "+" => some (11, "AddExpression")
  | "-" => some (11, "SubtractExpression")
  | "*" => some (12, "MultiplyExpression")
  | "/" => some (12, "DivideExpression")
  | "%" => some (12, "ModExpression")
  | "**" => some (13, "PowerExpression")
  | _ => none

/-- The level of the conditional operator. -/
def conditionalLevel : Nat := 2

/-- The level of membership. -/
def insideLevel : Nat := 9

/-- The operators in front of an operand. -/
def unaryOperators : List String :=
  ["+", "-", "!", "~", "&", "~&", "|", "~|", "^", "~^", "^~", "++", "--"]

/-- The operators that assign, but for the one that assigns without blocking. -/
def assignmentOperators : List String :=
  ["=", "+=", "-=", "*=", "/=", "%=", "&=", "|=", "^=", "<<=", ">>=", "<<<=", ">>>="]

end HdlLint.Verilog.Parser
