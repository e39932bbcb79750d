import HdlLint.Verilog.Grammar.Member

/-!
# The grammar of SystemVerilog

`Grammar.read` reads the lexemes of a file as a syntax tree, or fails with the first fault. The
rules of the grammar call each other through `Grammar.parse`, down to a depth that only constructs
nested more deeply than the file has lexemes would exceed.
-/

namespace HdlLint.Verilog.Grammar

/-- The rule of a goal. -/
def rule : Goal → Parser Tree
  | .expression level => Parser.expressionAt level
  | .operand => Parser.operand
  | .assignment => Parser.assignmentExpression
  | .value => Parser.assignedValue
  | .property => Parser.property
  | .pattern => Parser.pattern
  | .statement emptyAllowed => Parser.statement emptyAllowed
  | .blockItem => Parser.blockItem
  | .member _ => Parser.member
  | .generateBlock => Parser.generateBlock
  | .dataType implicitAllowed => Parser.dataType implicitAllowed
  | .constraintItem => Parser.constraintItem
  | .classMember => Parser.classMember

/-- Reads a goal, down to a depth. -/
def parse : (depth : Nat) → Goal → Cursor → Except Failure (Tree × Cursor)
  | 0, _, c => .error ⟨⟨.nestedTooDeep, (c.lexemes.getD c.position Lexeme.none).start⟩, c.seen⟩
  | depth + 1, goal, c => rule goal (parse depth) c

/-- Reads the lexemes of a file, the last of which is the end of the file. -/
def read (lexemes : Array Lexeme) : Except Failure Tree :=
  (Parser.compilationUnit (parse (8 * lexemes.size + 64)) ⟨lexemes, 0, 0⟩).map (·.1)

end HdlLint.Verilog.Grammar
