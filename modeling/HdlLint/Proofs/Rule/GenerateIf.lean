import HdlLint.Proofs.Linter.SingleRule
import HdlLint.Proofs.Syntax.Preorder

/-!
# Conditionals that generate

The rule `generate_if_with_label` over whole trees. It looks at one conditional at a time: at the
branch behind `if` first, and at the one behind `else` only if that one is as it must be
(`check_generateIfWithLabel`). A branch that is a conditional again is left to its own turn, so along
a chain of conditionals the branches behind `if` are all looked at, and of those behind `else` the
last one, if at all (`flatMap_chain`). `lint_generateIfWithLabel` puts it together.
-/

namespace HdlLint

namespace Tree

/-- The branch of a conditional behind its condition. -/
def thenBranch (t : Tree) : Tree :=
  t.field "block"

/-- The keyword in front of the other branch. -/
def elseKeyword (t : Tree) : Tree :=
  t.elseClause.field "elseKeyword"

/-- The other branch of a conditional. -/
def elseBranch (t : Tree) : Tree :=
  t.elseClause.field "clause"

/-- Whether a tree is a block between `begin` and `end` with a label, behind `begin` or in front of
it. -/
def isLabelledBlock (t : Tree) : Bool :=
  t.isGenerateBlock && ((t.field "beginName").isPresent || (t.field "label").isPresent)

/-- Whether a tree is a block between `begin` and `end` without a label. -/
def isBareBlock (t : Tree) : Bool :=
  t.isGenerateBlock && !t.isLabelledBlock

theorem isPresent_generateBlockLabel (t : Tree) :
    t.generateBlockLabel.isPresent = t.isLabelledBlock := by
  rw [generateBlockLabel, isLabelledBlock]
  cases t.isGenerateBlock with
  | false => rfl
  | true => cases hname : (t.field "beginName").isPresent <;> simp [hname]

theorem isPresent_of_isPresent_field {t : Tree} {name : String}
    (h : (t.field name).isPresent = true) : t.isPresent = true := by
  cases t with
  | absent => cases h
  | _ => rfl

theorem isNode_of_hasKind {t : Tree} {kind : NodeKind} (h : t.hasKind kind = true) :
    t.isNode = true := by
  cases t with
  | node head children => rfl
  | token tok => cases h
  | absent => cases h

theorem isPresent_of_hasKind {t : Tree} {kind : NodeKind} (h : t.hasKind kind = true) :
    t.isPresent = true := by
  cases t with
  | absent => cases h
  | _ => rfl

theorem isGenerateBlock_of_ifGenerate {t : Tree} (h : t.hasKind .ifGenerate = true) :
    t.isGenerateBlock = false := by
  rw [hasKind, decide_eq_true_eq] at h
  rw [isGenerateBlock, hasKind, h]
  decide

end Tree

namespace BuiltInRule

/-- What the rule says of a node: a conditional breaks it where the first branch is no labelled
block, and else at its `else` where the other branch is a block without a label. -/
def generateIfVerdict (node : Tree) : Verdict :=
  if !node.hasKind .ifGenerate then .pass
  else if !node.thenBranch.isLabelledBlock then .fail
  else if node.elseBranch.isBareBlock then .failAt node.elseKeyword.range
  else .pass

theorem check_generateIfWithLabel_eq (node : Tree) :
    generateIfWithLabel.check node =
      if !node.hasKind .ifGenerate then .ok .pass
      else if !node.thenBranch.isLabelledBlock then .ok .fail
      else if !node.elseBranch.isGenerateBlock || node.elseBranch.isLabelledBlock then .ok .pass
      else if node.elseKeyword.isPresent then .ok (.failAt node.elseKeyword.range)
      else .error (.noField "range") := by
  rw [← Tree.isPresent_generateBlockLabel, ← Tree.isPresent_generateBlockLabel]
  rfl

/-- The rule answers for each node whose `else` clause, if there is one, starts with the keyword. -/
theorem check_generateIfWithLabel {node : Tree}
    (h : node.hasKind .ifGenerate = true → node.elseClause.isPresent = true →
      node.elseKeyword.isPresent = true) :
    generateIfWithLabel.check node = .ok (generateIfVerdict node) := by
  rw [check_generateIfWithLabel_eq, generateIfVerdict, Tree.isBareBlock]
  cases hkind : node.hasKind .ifGenerate with
  | false => rfl
  | true =>
    cases node.thenBranch.isLabelledBlock with
    | false => rfl
    | true =>
      cases hblock : node.elseBranch.isGenerateBlock with
      | false => rfl
      | true =>
        have hclause := Tree.isPresent_of_isPresent_field (Tree.isPresent_of_hasKind hblock)
        cases node.elseBranch.isLabelledBlock with
        | true => rfl
        | false => simp [h hkind hclause]

/-- What the rule tells of a node. -/
def generateIfReports (path : Path) (node : Tree) : List Failed :=
  generateIfWithLabel.reports path node (generateIfVerdict node)

theorem generateIfReports_of_ifGenerate (path : Path) {node : Tree}
    (h : node.hasKind .ifGenerate = true) :
    generateIfReports path node =
      if !node.thenBranch.isLabelledBlock then [generateIfWithLabel.report path node.range]
      else if node.elseBranch.isBareBlock then
        [generateIfWithLabel.report path node.elseKeyword.range]
      else [] := by
  rw [generateIfReports, generateIfVerdict, h]
  cases node.thenBranch.isLabelledBlock with
  | false => rfl
  | true => cases node.elseBranch.isBareBlock <;> rfl

/-- Nothing is told of a node if and only if it is no conditional, or its first branch is a labelled
block and the other one no block without a label. -/
theorem generateIfReports_eq_nil_iff {path : Path} {node : Tree} :
    generateIfReports path node = [] ↔ (node.hasKind .ifGenerate = true →
      node.thenBranch.isLabelledBlock = true ∧
        (node.elseBranch.isGenerateBlock = true → node.elseBranch.isLabelledBlock = true)) := by
  cases hkind : node.hasKind .ifGenerate with
  | false =>
    rw [generateIfReports, generateIfVerdict, hkind]
    simp [reports, Verdict.passed]
  | true =>
    rw [generateIfReports_of_ifGenerate path hkind, Tree.isBareBlock]
    cases node.thenBranch.isLabelledBlock with
    | false => simp
    | true => cases node.elseBranch.isGenerateBlock <;> simp

end BuiltInRule

namespace Tree

/-- Conditionals each of which is the other branch of the one in front of it. -/
inductive IsElseIfChain : List Tree → Prop
  | single {node : Tree} (hkind : node.hasKind .ifGenerate = true) : IsElseIfChain [node]
  | cons {node : Tree} {chain : List Tree} (hkind : node.hasKind .ifGenerate = true)
      (hchain : IsElseIfChain (node.elseBranch :: chain)) :
      IsElseIfChain (node :: node.elseBranch :: chain)

namespace IsElseIfChain

variable {chain : List Tree}

theorem hasKind (h : IsElseIfChain chain) : ∀ node ∈ chain, node.hasKind .ifGenerate = true := by
  induction h with
  | single hkind => exact List.forall_mem_singleton.mpr hkind
  | cons hkind _ ih => exact List.forall_mem_cons.mpr ⟨hkind, ih⟩

/-- A chain stands in the pre-order of its first conditional. -/
theorem sublist_preorder (h : IsElseIfChain chain) :
    ∀ node ∈ chain.head?, chain.Sublist node.preorder := by
  induction h with
  | @single node hkind =>
    intro _ hnode
    obtain rfl := Option.some.inj hnode
    rw [preorder_eq_cons (isPresent_of_hasKind hkind)]
    exact (List.nil_sublist _).cons_cons node
  | @cons node chain _ hchain ih =>
    intro _ hnode
    obtain rfl := Option.some.inj hnode
    have hbranch : node.elseBranch.isPresent = true :=
      isPresent_of_hasKind (hchain.hasKind _ List.mem_cons_self)
    have hclause : node.elseClause.isPresent = true := isPresent_of_isPresent_field hbranch
    have hbelow : (node.elseBranch :: chain).Sublist node.elseClause.preorder :=
      ((ih _ rfl).cons _).trans (cons_preorder_field_sublist hbranch)
    exact (hbelow.cons_cons node).trans (cons_preorder_field_sublist hclause)

/-- In a tree a chain stands among the nodes, in its order, where its first conditional does. -/
theorem sublist_nodes (h : IsElseIfChain chain) {root node : Tree} (hhead : chain.head? = some node)
    (hnode : node ∈ root.nodes) : chain.Sublist root.nodes := by
  rw [nodes_eq_preorder] at hnode ⊢
  have hall : chain.filter isNode = chain :=
    List.filter_eq_self.mpr fun n hn => isNode_of_hasKind (h.hasKind n hn)
  rw [← hall]
  exact ((h.sublist_preorder node hhead).trans
    (sublist_of_mem_preorder (List.mem_filter.mp hnode).1)).filter _

/-- Along a chain the rule tells of each conditional whose first branch is no labelled block, and of
the last `else` if the first branch in front of it is labelled and a block without a label is behind
it. -/
theorem flatMap_reports (h : IsElseIfChain chain) (path : Path) {last : Tree}
    (hlast : chain.getLast? = some last) :
    chain.flatMap (BuiltInRule.generateIfReports path) =
      ((chain.filter fun node => !node.thenBranch.isLabelledBlock).map fun node =>
        BuiltInRule.generateIfWithLabel.report path node.range) ++
      if last.thenBranch.isLabelledBlock && last.elseBranch.isBareBlock then
        [BuiltInRule.generateIfWithLabel.report path last.elseKeyword.range]
      else [] := by
  induction h with
  | @single node hkind =>
    obtain rfl := Option.some.inj hlast
    rw [List.flatMap_singleton, BuiltInRule.generateIfReports_of_ifGenerate path hkind]
    cases hthen : node.thenBranch.isLabelledBlock <;> simp [hthen]
  | @cons node chain hkind hchain ih =>
    rw [List.getLast?_cons_cons] at hlast
    -- the other branch is a conditional, so nothing is told of it here
    have hbare : node.elseBranch.isBareBlock = false := by
      rw [isBareBlock, isGenerateBlock_of_ifGenerate (hchain.hasKind _ List.mem_cons_self)]
      rfl
    rw [List.flatMap_cons, ih hlast, BuiltInRule.generateIfReports_of_ifGenerate path hkind, hbare,
      ← List.append_assoc]
    congr 1
    cases hthen : node.thenBranch.isLabelledBlock <;> simp [hthen, List.filter_cons]

end IsElseIfChain

end Tree

namespace Linter

open BuiltInRule (generateIfWithLabel)

/-- Checking a tree with this rule alone tells of its nodes one after the other. Nothing is told if
and only if in each conditional the first branch is a labelled block, and so is the other one if it
is a block. Along a chain of conditionals, which stand among the nodes in their order, there is one
report for each of them whose first branch is no labelled block, at the conditional, and one at the
last `else` if the first branch in front of it is a labelled block and the last branch a block
without a label. -/
theorem lint_generateIfWithLabel {c : Config} (hc : c.EnablesOnly generateIfWithLabel) (path : Path)
    {root : Tree} (hroot : ∀ node ∈ root.nodes, node.hasKind .ifGenerate = true →
      node.elseClause.isPresent = true → node.elseKeyword.isPresent = true) :
    ∃ failed : Tree → List Failed,
      (∀ node ∈ root.nodes, (ofConfig c).lintNodes path root [node] = .ok (failed node)) ∧
      (ofConfig c).lint path root = .ok (root.nodes.flatMap failed) ∧
      ((ofConfig c).lint path root = .ok [] ↔
        ∀ node ∈ root.nodes, node.hasKind .ifGenerate = true →
          node.thenBranch.isLabelledBlock = true ∧
            (node.elseBranch.isGenerateBlock = true → node.elseBranch.isLabelledBlock = true)) ∧
      ∀ chain first last, Tree.IsElseIfChain chain → chain.head? = some first →
        first ∈ root.nodes → chain.getLast? = some last →
          chain.Sublist root.nodes ∧ chain.flatMap failed =
            ((chain.filter fun node => !node.thenBranch.isLabelledBlock).map fun node =>
              generateIfWithLabel.report path node.range) ++
            if last.thenBranch.isLabelledBlock && last.elseBranch.isBareBlock then
              [generateIfWithLabel.report path last.elseKeyword.range]
            else [] := by
  have hmem : generateIfWithLabel ∈ BuiltInRule.all := by simp [BuiltInRule.all]
  have hcheck : ∀ node ∈ root.nodes,
      generateIfWithLabel.check node = .ok (BuiltInRule.generateIfVerdict node) :=
    fun node hnode => BuiltInRule.check_generateIfWithLabel (hroot node hnode)
  have hlint : (ofConfig c).lint path root =
      .ok (root.nodes.flatMap (BuiltInRule.generateIfReports path)) :=
    lintNodes_single hmem hc path root hcheck
  refine ⟨BuiltInRule.generateIfReports path, fun node hnode => ?_, hlint, ?_,
    fun chain first last hchain hfirst hnode hlast =>
      ⟨hchain.sublist_nodes hfirst hnode, hchain.flatMap_reports path hlast⟩⟩
  · rw [lintNodes_single hmem hc path root (List.forall_mem_singleton.mpr (hcheck node hnode)),
      List.flatMap_singleton]
    rfl
  · rw [hlint, Except.ok.injEq, List.flatMap_eq_nil_iff]
    exact forall₂_congr fun node _ => BuiltInRule.generateIfReports_eq_nil_iff

/-! ## Two conditionals -/

/-- A range at the start of a line. -/
def lineRange (line : Int) : Range :=
  ⟨.text none 0 line 1, .text none 4 line 5⟩

/-- A block whose label, if there is one, is the first child. -/
def sampleBlock (label : List Tree) : Tree :=
  .node ⟨.generateBlock, .origin, [("beginName", 0)]⟩ label

/-- A conditional on a line with an `else` on the next one. -/
def sampleIf (line : Int) (block branch : Tree) : Tree :=
  .node ⟨.ifGenerate, lineRange line, [("block", 0), ("elseClause", 1)]⟩
    [block, .node ⟨.elseClause, .origin, [("elseKeyword", 0), ("clause", 1)]⟩
      [.token ⟨⟨"ElseKeyword"⟩, "else", "else", lineRange (line + 1), []⟩, branch]]

/-- A conditional with a labelled block and one without a label. -/
def sampleInner : Tree :=
  sampleIf 3 (sampleBlock [.node ⟨⟨"NamedBlockClause"⟩, .origin, []⟩ []]) (sampleBlock [])

/-- A conditional with a block without a label and the other conditional. -/
def sampleOuter : Tree :=
  sampleIf 1 (sampleBlock []) sampleInner

/-- The first conditional is reported on for its first branch, the second one at its `else`. -/
theorem lint_generateIfWithLabel_sample :
    let c : Config := ⟨OrderedTable.ofList [(generateIfWithLabel.name, true)], []⟩
    let path : Path := ⟨.relative, ["a.sv"]⟩
    c.EnablesOnly generateIfWithLabel ∧
    (∀ node ∈ sampleOuter.nodes, node.hasKind .ifGenerate = true →
      node.elseClause.isPresent = true → node.elseKeyword.isPresent = true) ∧
    (ofConfig c).lint path sampleOuter ≠ .ok [] ∧
    ∃ failed : Tree → List Failed,
      (ofConfig c).lint path sampleOuter = .ok (sampleOuter.nodes.flatMap failed) ∧
      [sampleOuter, sampleInner].Sublist sampleOuter.nodes ∧
      ([sampleOuter, sampleInner].flatMap failed).map Failed.line = [1, 4] := by
  intro c path
  have hc : c.EnablesOnly generateIfWithLabel := by
    unfold Config.EnablesOnly
    decide +kernel
  have hmem : sampleOuter ∈ sampleOuter.nodes := by
    rw [Tree.nodes_eq_preorder]
    exact List.mem_cons_self
  have hroot : ∀ node ∈ sampleOuter.nodes, node.hasKind .ifGenerate = true →
      node.elseClause.isPresent = true → node.elseKeyword.isPresent = true := by
    rw [Tree.nodes_eq_preorder]
    decide +kernel
  have hchain : Tree.IsElseIfChain [sampleOuter, sampleInner] := .cons rfl (.single rfl)
  obtain ⟨failed, -, hlint, hnone, hchains⟩ := lint_generateIfWithLabel hc path hroot
  obtain ⟨hsub, hreports⟩ := hchains _ _ _ hchain rfl hmem rfl
  refine ⟨hc, hroot, fun hnil => ?_, failed, hlint, hsub, ?_⟩
  · cases (hnone.mp hnil sampleOuter hmem rfl).1
  · rw [hreports]
    decide +kernel

end Linter

end HdlLint
