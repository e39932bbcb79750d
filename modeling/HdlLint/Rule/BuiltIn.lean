import HdlLint.Rule.Basic
import HdlLint.Syntax.Parts

/-!
# The built-in rules

The rules that are always known, in the order of their names. Their names, hints and reasons are
texts; only reading a missing part of a tree can make a check fail.
-/

namespace HdlLint

/-- A rule of this library: constant texts, and a check that may read a missing part. -/
structure BuiltInRule where
  name : String
  hint : String
  reason : String := ""
  check : Tree → Except Fault Verdict

namespace BuiltInRule

/-- A built-in rule among all rules. -/
def toRule (r : BuiltInRule) : Rule where
  check _ node := (r.check node).map .verdict
  name := .ok (.text r.name)
  hint := .ok (.text r.hint)
  reason := .ok (.text r.reason)

/-- Loops that generate have a labelled block. -/
def generateForWithLabel : BuiltInRule where
  name := "generate_for_with_label"
  hint := "\x60generate for\x60 must have label"
  reason := "the hierarchiral path can't be determined"
  check node := .ok <|
    if node.hasKind .loopGenerate && !(node.field "block").generateBlockLabel.isPresent then .fail
    else .pass

/-- Both branches of a conditional that generates have a labelled block. A branch that is another
conditional is checked by itself. -/
def generateIfWithLabel : BuiltInRule where
  name := "generate_if_with_label"
  hint := "\x60generate if\x60 must have label"
  reason := "the hierarchiral path can't be determined"
  check node :=
    if !node.hasKind .ifGenerate then .ok .pass
    else if !(node.field "block").generateBlockLabel.isPresent then .ok .fail
    else
      let clause := node.elseClause
      let block := clause.field "clause"
      if !block.isGenerateBlock || block.generateBlockLabel.isPresent then .ok .pass
      else if (clause.field "elseKeyword").isPresent then
        .ok (.failAt (clause.field "elseKeyword").range)
      else .error (.noField "range")

/-- No region is marked by `generate`. -/
def generateKeyword : BuiltInRule where
  name := "generate_keyword"
  hint := "\x60generate\x60/\x60endgenerate\x60 must be omitted"
  check node := .ok (if node.hasKind .generateRegion then .fail else .pass)

/-- Modules declare their ports in the header. -/
def nonAnsiModule : BuiltInRule where
  name := "non_ansi_module"
  hint := "module declaration must be ANSI-style"
  reason := "non-ANSI-style has duplicated port declaration"
  check node := node.modulePorts.map fun ports =>
    if ports.hasKind .nonAnsiPortList then .fail else .pass

/-- The range of the keyword in front of a branching statement, if it is the given one. -/
def checkKeyword (kind : TokenKind) (node : Tree) : Verdict :=
  if node.uniqueOrPriority.tokenKind? = some kind then .failAt node.uniqueOrPriority.range
  else .pass

/-- No statement is marked by `priority`. -/
def priorityKeyword : BuiltInRule where
  name := "priority_keyword"
  hint := "\x60priority\x60 is forbidden"
  reason := "this causes mismatch between simulaton and synthesis"
  check node := .ok (checkKeyword .priorityKeyword node)

/-- No statement is marked by `unique`. -/
def uniqueKeyword : BuiltInRule where
  name := "unique_keyword"
  hint := "\x60unique\x60 is forbidden"
  reason := "this causes mismatch between simulaton and synthesis"
  check node := .ok (checkKeyword .uniqueKeyword node)

/-- The built-in rules. -/
def all : List BuiltInRule :=
  [generateForWithLabel, generateIfWithLabel, generateKeyword, nonAnsiModule, priorityKeyword,
    uniqueKeyword]

/-- The names of the built-in rules. -/
def names : List String :=
  all.map (·.name)

end BuiltInRule

end HdlLint
