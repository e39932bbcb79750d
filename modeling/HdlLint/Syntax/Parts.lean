import HdlLint.Fault
import HdlLint.Syntax.Tree

/-!
# Parts of syntax trees

The parts of nodes that rules look at. A part that may be missing is `Tree.absent`; reading on from
a missing node is a fault (`Tree.fieldOf`).
-/

namespace HdlLint.Tree

/-- The child of a name, which only a node has. -/
def fieldOf (t : Tree) (name : String) : Except Fault Tree :=
  if t.isPresent then .ok (t.field name) else .error (.noField name)

/-- Whether a tree is a generate block between `begin` and `end`. -/
def isGenerateBlock (t : Tree) : Bool :=
  t.hasKind .generateBlock

/-- The label of a generate block, behind `begin` or in front of it. -/
def generateBlockLabel (t : Tree) : Tree :=
  if !t.isGenerateBlock then .absent
  else if (t.field "beginName").isPresent then t.field "beginName"
  else t.field "label"

/-- The part behind `else`. -/
def elseClause (t : Tree) : Tree :=
  t.field "elseClause"

/-- The keyword in front of an `if` or a `case` that demands a matching branch. -/
def uniqueOrPriority (t : Tree) : Tree :=
  if t.hasKind .conditionalStatement || t.hasKind .caseStatement then t.field "uniqueOrPriority"
  else .absent

/-- The port list of a module. -/
def modulePorts (t : Tree) : Except Fault Tree :=
  if t.hasKind .moduleDeclaration then (t.field "header").fieldOf "ports" else .ok .absent

end HdlLint.Tree
