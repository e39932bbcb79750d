import HdlLint.Syntax.Tree

/-!
# Walking over a tree

All nodes and tokens of a tree in pre-order, a node before what is below it and children from left
to right. `Tree.walk` keeps the trees still to be visited on a stack; `Tree.preorder` is the
recursive order.
-/

namespace HdlLint

namespace Tree

mutual

/-- The number of nodes, tokens and absent children of a tree. -/
def count : Tree → Nat
  | .node _ children => 1 + countAll children
  | .token _ => 1
  | .absent => 1

/-- The number of nodes, tokens and absent children of some trees. -/
def countAll : List Tree → Nat
  | [] => 0
  | t :: ts => t.count + countAll ts

end

mutual

/-- A node, then its present children from left to right, each with all below it. -/
def preorder : Tree → List Tree
  | .node head children => .node head children :: preorderAll children
  | .token t => [.token t]
  | .absent => []

/-- The pre-orders of some trees, one after the other. -/
def preorderAll : List Tree → List Tree
  | [] => []
  | t :: ts => t.preorder ++ preorderAll ts

end

theorem countAll_append (ts us : List Tree) : countAll (ts ++ us) = countAll ts + countAll us := by
  induction ts with
  | nil => simp [countAll]
  | cons t ts ih => simp [countAll, ih]; omega

theorem countAll_filter_le (p : Tree → Bool) (ts : List Tree) :
    countAll (ts.filter p) ≤ countAll ts := by
  induction ts with
  | nil => simp
  | cons t ts ih =>
    rw [List.filter_cons]
    split <;> simp only [countAll] <;> omega

theorem countAll_children_lt (t : Tree) : countAll t.children < t.count := by
  cases t <;> simp [children, count, countAll]

/-- Visits the trees of a stack from the top. The present children of a tree take its place. -/
def walkStack : List Tree → List Tree
  | [] => []
  | t :: stack => t :: walkStack (t.children.filter isPresent ++ stack)
termination_by stack => countAll stack
decreasing_by
  have := countAll_filter_le isPresent t.children
  have := countAll_children_lt t
  simp only [countAll_append, countAll]
  omega

/-- Visits a tree and all below it. -/
def walk (t : Tree) : List Tree :=
  walkStack [t]

/-- The nodes of a tree in pre-order. -/
def nodes (t : Tree) : List Tree :=
  t.walk.filter isNode

/-- The tokens of a tree from left to right. -/
def tokens (t : Tree) : List Token :=
  t.walk.filterMap fun
    | .token tok => some tok
    | _ => none

end Tree

end HdlLint
