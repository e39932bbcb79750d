import HdlLint.Fault
import HdlLint.Syntax.Tree

/-!
# Rules

A rule looks at one node of a syntax tree at a time and tells whether the node keeps it. Rules come
from plugins too, so a rule may fail while it is asked (`Fault`), what it answers may be no verdict
at all (`Reply.stray`), and the place that a verdict names may be none (`Verdict.failNowhere`). A
rule answers the same whenever it is asked the same, and does nothing else.
-/

namespace HdlLint

/-- What a rule says of a node. -/
inductive Verdict
  /-- The node keeps the rule, or the rule does not concern it. -/
  | pass
  /-- The node breaks the rule. -/
  | fail
  /-- The node breaks the rule in a range. -/
  | failAt (range : Range)
  /-- The node breaks the rule in what is no range: looking for it there raises a fault. -/
  | failNowhere (fault : Fault)

/-- What a rule answers. -/
inductive Reply
  | verdict (v : Verdict)
  /-- A value that is no verdict. -/
  | stray (value : Value)
  /-- An object that raises a fault when it is looked at. -/
  | hidden (fault : Fault)

/-- A rule. -/
structure Rule where
  /-- What the rule says of a node of a tree. -/
  check : (root node : Tree) → Except Fault Reply
  name : Except Fault Value
  /-- What to do instead. -/
  hint : Except Fault Value
  /-- Why the rule is there. -/
  reason : Except Fault Value

namespace Rule

/-- What an object that answers no question does with one. -/
def unanswered : Fault where
  kind := "NotImplementedError"
  arguments := []

/-- The rule that others extend. It gives no reason, and answers nothing else. -/
def base : Rule where
  check _ _ := .error unanswered
  name := .error unanswered
  hint := .error unanswered
  reason := .ok (.text "")

end Rule

/-- A place at which a rule is broken. -/
structure Failed where
  name : String
  hint : String
  reason : String
  path : String
  line : Int
  column : Int
  length : Int := 1
deriving DecidableEq, Repr

namespace Verdict

/-- Whether a node keeps the rule. -/
def passed : Verdict → Bool
  | .pass => true
  | _ => false

/-- The range that a verdict on a node names. -/
def rangeAt (node : Tree) : Verdict → Range
  | .failAt range => range
  | _ => node.range

/-- The fault of looking for the range of a verdict. -/
def locateFault? : Verdict → Option Fault
  | .failNowhere fault => some fault
  | _ => none

end Verdict

end HdlLint
