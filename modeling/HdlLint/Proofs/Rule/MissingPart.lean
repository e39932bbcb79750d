import HdlLint.Proofs.Linter.Lint
import HdlLint.Proofs.Rule.GenerateIf

/-!
# Trees with missing parts

A tree need not be complete, and of the built-in rules two read on from a part that may be missing:
the ports of a module from its header, and the place of `else` from the keyword. Checking a tree with
any of the built-in rules goes as far as the first node that lacks such a part
(`lint_builtIn_eq`), and ends well where there is none: `lint_builtIn`.
-/

namespace HdlLint

namespace Tree

/-- Whether a tree is a module without a header. -/
def lacksHeader (t : Tree) : Bool :=
  t.hasKind .moduleDeclaration && !(t.field "header").isPresent

/-- Whether a tree is a conditional with a labelled block behind `if` and a block without a label
behind an `else` that is not there. -/
def lacksElse (t : Tree) : Bool :=
  t.hasKind .ifGenerate && t.thenBranch.isLabelledBlock && t.elseBranch.isBareBlock &&
    !t.elseKeyword.isPresent

end Tree

namespace BuiltInRule

/-- The fault of showing a node to a rule, if the rule fails. -/
def fault? (r : BuiltInRule) (node : Tree) : Option PluginFault :=
  match r.check node with
  | .error fault => some (.check r.name Linter.builtInOrigin fault)
  | .ok _ => none

theorem fault?_nonAnsiModule (node : Tree) :
    nonAnsiModule.fault? node =
      if node.lacksHeader then
        some (.check nonAnsiModule.name Linter.builtInOrigin (.noField "ports"))
      else none := by
  have hcheck : nonAnsiModule.check node = node.modulePorts.map fun ports =>
      if ports.hasKind .nonAnsiPortList then .fail else .pass := rfl
  rw [fault?, hcheck, Tree.modulePorts, Tree.lacksHeader]
  cases node.hasKind .moduleDeclaration with
  | false => rfl
  | true =>
    rw [if_pos rfl, Tree.fieldOf]
    cases (node.field "header").isPresent <;> rfl

theorem fault?_generateIfWithLabel (node : Tree) :
    generateIfWithLabel.fault? node =
      if node.lacksElse then
        some (.check generateIfWithLabel.name Linter.builtInOrigin (.noField "range"))
      else none := by
  rw [fault?, check_generateIfWithLabel_eq, Tree.lacksElse, Tree.isBareBlock]
  cases node.hasKind .ifGenerate with
  | false => rfl
  | true =>
    cases node.thenBranch.isLabelledBlock with
    | false => rfl
    | true =>
      cases node.elseBranch.isGenerateBlock with
      | false => rfl
      | true =>
        cases node.elseBranch.isLabelledBlock with
        | true => rfl
        | false => cases node.elseKeyword.isPresent <;> rfl

end BuiltInRule

/-! ## The first fault of some steps -/

theorem findSome?_filter {α β : Type} (p : α → Bool) (f : α → Option β) (as : List α) :
    (as.filter p).findSome? f = as.findSome? fun a => if p a then f a else none := by
  induction as with
  | nil => rfl
  | cons a as ih =>
    rw [List.filter_cons, List.findSome?_cons]
    cases p a with
    | false => exact ih
    | true => rw [if_pos rfl, if_pos rfl, List.findSome?_cons, ih]

theorem findSome?_flatMap {α β γ : Type} (f : α → List β) (g : β → Option γ) (as : List α) :
    (as.flatMap f).findSome? g = as.findSome? fun a => (f a).findSome? g := by
  induction as with
  | nil => rfl
  | cons a as ih =>
    rw [List.flatMap_cons, List.findSome?_append, List.findSome?_cons, ih]
    cases (f a).findSome? g <;> rfl

theorem RuleObject.map_number_numbered (first : Nat) (rules : List Rule) :
    (numbered first rules).map RuleObject.number = List.range' first rules.length := by
  induction rules generalizing first with
  | nil => rfl
  | cons rule rules ih => rw [numbered, List.map_cons, ih, List.length_cons, List.range'_succ]

namespace Linter

open BuiltInRule (nonAnsiModule generateIfWithLabel)

/-- The fault at a node that lacks a part from which one of the enabled rules reads on. -/
def missing? (c : Config) (node : Tree) : Option PluginFault :=
  if c.isEnabled generateIfWithLabel.name && node.lacksElse then
    some (.check generateIfWithLabel.name builtInOrigin (.noField "range"))
  else if c.isEnabled nonAnsiModule.name && node.lacksHeader then
    some (.check nonAnsiModule.name builtInOrigin (.noField "ports"))
  else none

theorem missing?_ne_none_iff {c : Config} {node : Tree} :
    missing? c node ≠ none ↔
      (c.isEnabled nonAnsiModule.name = true ∧ node.lacksHeader = true) ∨
        (c.isEnabled generateIfWithLabel.name = true ∧ node.lacksElse = true) := by
  rw [missing?]
  split
  · next h => simp_all
  · next h => split <;> simp_all

/-- Of the enabled rules the first one that fails at a node is one of these two. -/
theorem findSome?_fault? (c : Config) (node : Tree) :
    (BuiltInRule.all.filter fun r => c.isEnabled r.name).findSome? (·.fault? node) =
      missing? c node := by
  have hfor : BuiltInRule.generateForWithLabel.fault? node = none := rfl
  have hkeyword : BuiltInRule.generateKeyword.fault? node = none := rfl
  have hpriority : BuiltInRule.priorityKeyword.fault? node = none := rfl
  have hunique : BuiltInRule.uniqueKeyword.fault? node = none := rfl
  rw [findSome?_filter, BuiltInRule.all]
  simp only [List.findSome?_cons, List.findSome?_nil, hfor, hkeyword, hpriority, hunique, ite_self,
    BuiltInRule.fault?_generateIfWithLabel, BuiltInRule.fault?_nonAnsiModule]
  rw [missing?]
  cases c.isEnabled generateIfWithLabel.name <;> cases node.lacksElse <;>
    cases c.isEnabled nonAnsiModule.name <;> cases node.lacksHeader <;> rfl

/-! ## Checking with built-in rules -/

variable (c : Config)

theorem nodup_numbers_ofConfig : ((ofConfig c).rules.map (·.number)).Nodup := by
  obtain ⟨-, hrules, -⟩ := build_ok c
  rw [hrules, RuleObject.map_number_numbered]
  exact List.nodup_range'

theorem builtInEntries_eq :
    builtInEntries c =
      List.zipWith (fun o name => ⟨o, name, builtInOrigin⟩)
        (RuleObject.numbered 0
          ((BuiltInRule.all.filter fun r => c.isEnabled r.name).map BuiltInRule.toRule))
        ((BuiltInRule.all.filter fun r => c.isEnabled r.name).map (·.name)) := by
  obtain ⟨-, hrules, hnames, -⟩ := build_ok c
  rw [builtInEntries, hrules, hnames, BuiltInRule.names, List.filter_map]
  rfl

/-- Built-in rules fail as entries of a linter where they fail by themselves. -/
theorem findSome?_check (root node : Tree) (first : Nat) (rs : List BuiltInRule) :
    ((List.zipWith (fun o name => (⟨o, name, builtInOrigin⟩ : Registered))
      (RuleObject.numbered first (rs.map BuiltInRule.toRule)) (rs.map (·.name))).map
        (Event.check node)).findSome? (Event.fault? root) = rs.findSome? (·.fault? node) := by
  induction rs generalizing first with
  | nil => rfl
  | cons r rs ih =>
    have hfault : Event.fault? root (.check node ⟨⟨first, r.toRule⟩, r.name, builtInOrigin⟩) =
        r.fault? node := by
      have htoRule : r.toRule.check root node = (r.check node).map .verdict := rfl
      rw [Event.fault?, htoRule, BuiltInRule.fault?]
      cases r.check node <;> rfl
    rw [List.map_cons, RuleObject.numbered, List.map_cons, List.zipWith_cons_cons, List.map_cons,
      List.findSome?_cons, List.findSome?_cons, hfault, ih]

/-- All built-in rules can be described, at the ranges that their verdicts name. -/
theorem fault?_describe {root node : Tree} {b : Breach}
    (hb : b ∈ Breach.allAt root (builtInEntries c) node) : (Event.describe b).fault? root = none := by
  obtain ⟨entry, hentry, hmap⟩ := List.mem_filterMap.mp hb
  obtain ⟨v, hfailing, rfl⟩ := Option.map_eq_some_iff.mp hmap
  have hobject : entry.object ∈ (ofConfig c).rules := by
    rw [(holds_builtInEntries c).rules_eq]
    exact List.mem_map_of_mem hentry
  obtain ⟨-, hrules, -⟩ := build_ok c
  have hrule : entry.object.rule ∈ enabledRules c := by
    rw [← RuleObject.map_rule_numbered 0 (enabledRules c), ← hrules]
    exact List.mem_map_of_mem hobject
  obtain ⟨r, hr, htoRule⟩ := List.mem_map.mp hrule
  have hcheck : r.check node = .ok v := by
    rw [Registered.failing?, ← htoRule, BuiltInRule.toRule] at hfailing
    cases hv : r.check node with
    | error fault => simp [hv, Except.map] at hfailing
    | ok v' =>
      simp only [hv, Except.map, Option.ite_none_left_eq_some, Option.some.injEq] at hfailing
      rw [hfailing.2]
  have hlocate := BuiltInRule.locateFault?_of_check (List.mem_of_mem_filter hr) hcheck
  rw [Event.fault?, hlocate, ← htoRule]
  rfl

theorem findSome?_allAt (root node : Tree) :
    (Event.allAt root (builtInEntries c) node).findSome? (Event.fault? root) = missing? c node := by
  have hdescribe : ((Breach.allAt root (builtInEntries c) node).map Event.describe).findSome?
      (Event.fault? root) = none := by
    refine List.findSome?_eq_none_iff.mpr (List.forall_mem_map.mpr fun b hb => ?_)
    exact fault?_describe c hb
  rw [Event.allAt, List.findSome?_append, hdescribe, Option.or_none, builtInEntries_eq,
    findSome?_check, findSome?_fault?]

/-- Checking a tree with built-in rules ends at the first node that lacks a part, or with reports. -/
theorem lint_builtIn_eq (path : Path) (root : Tree) :
    (ofConfig c).lint path root =
      match root.nodes.findSome? (missing? c) with
      | some fault => .error fault
      | none => .ok ((Event.all root (builtInEntries c)).filterMap (Event.failed? path)) := by
  have hfirst : (Event.all root (builtInEntries c)).findSome? (Event.fault? root) =
      root.nodes.findSome? (missing? c) := by
    rw [Event.all, findSome?_flatMap, Tree.nodes_eq_preorder]
    exact congrArg (List.findSome? · _) (funext (findSome?_allAt c root))
  have hlint := lint_eq_settle (holds_builtInEntries c) (nodup_numbers_ofConfig c) path root
  rw [Event.settle, hfirst] at hlint
  exact hlint

/-- Whether a tree lacks a part from which one of the enabled rules reads on: the header of a module
with `non_ansi_module`, the keyword in front of a block without a label, behind a labelled one, with
`generate_if_with_label`. -/
def LacksPart (root : Tree) : Prop :=
  (c.isEnabled nonAnsiModule.name = true ∧ ∃ node ∈ root.preorder, node.lacksHeader = true) ∨
    (c.isEnabled generateIfWithLabel.name = true ∧ ∃ node ∈ root.preorder, node.lacksElse = true)

theorem lacksPart_iff (root : Tree) :
    LacksPart c root ↔ ∃ node ∈ root.nodes, missing? c node ≠ none := by
  rw [Tree.nodes_eq_preorder]
  constructor
  · rintro (⟨henabled, node, hmem, hlacks⟩ | ⟨henabled, node, hmem, hlacks⟩)
    · have hkind := hlacks
      rw [Tree.lacksHeader, Bool.and_eq_true] at hkind
      exact ⟨node, List.mem_filter.mpr ⟨hmem, Tree.isNode_of_hasKind hkind.1⟩,
        missing?_ne_none_iff.mpr (.inl ⟨henabled, hlacks⟩)⟩
    · have hkind := hlacks
      simp only [Tree.lacksElse, Bool.and_eq_true] at hkind
      exact ⟨node, List.mem_filter.mpr ⟨hmem, Tree.isNode_of_hasKind hkind.1.1.1⟩,
        missing?_ne_none_iff.mpr (.inr ⟨henabled, hlacks⟩)⟩
  · rintro ⟨node, hnode, hmissing⟩
    have hmem := (List.mem_filter.mp hnode).1
    exact (missing?_ne_none_iff.mp hmissing).imp (fun h => ⟨h.1, node, hmem, h.2⟩)
      fun h => ⟨h.1, node, hmem, h.2⟩

/-- With any of the built-in rules and no others, checking a tree fails if and only if the tree has a
module without a header while `non_ansi_module` is enabled, or a conditional with a labelled block
behind `if` and a block without a label behind an `else` that is not there while
`generate_if_with_label` is enabled. All other trees are reported on. The fault is that of the first
node, in pre-order, that lacks such a part. -/
theorem lint_builtIn (path : Path) (root : Tree) :
    ((∃ fault, (ofConfig c).lint path root = .error fault) ↔ LacksPart c root) ∧
    ((∃ failed, (ofConfig c).lint path root = .ok failed) ↔ ¬LacksPart c root) ∧
    ∀ fault, (ofConfig c).lint path root = .error fault ↔
      ∃ before node after, root.nodes = before ++ node :: after ∧ missing? c node = some fault ∧
        ∀ b ∈ before, missing? c b = none := by
  rw [lint_builtIn_eq, lacksPart_iff]
  cases hfirst : root.nodes.findSome? (missing? c) with
  | some first =>
    obtain ⟨before, node, after, hnodes, hnode, -⟩ := List.findSome?_eq_some_iff.mp hfirst
    have hlacks : ∃ node ∈ root.nodes, missing? c node ≠ none := by
      refine ⟨node, ?_, by rw [hnode]; nofun⟩
      rw [hnodes]
      exact List.mem_append_right before List.mem_cons_self
    refine ⟨⟨fun _ => hlacks, fun _ => ⟨first, rfl⟩⟩, ⟨nofun, fun h => absurd hlacks h⟩, fun fault => ?_⟩
    rw [← List.findSome?_eq_some_iff, hfirst, Except.error.injEq, Option.some.injEq]
  | none =>
    have hcomplete : ¬∃ node ∈ root.nodes, missing? c node ≠ none := by
      rintro ⟨node, hnode, hmissing⟩
      exact hmissing (List.findSome?_eq_none_iff.mp hfirst node hnode)
    refine ⟨⟨nofun, fun h => absurd h hcomplete⟩, ⟨fun _ => hcomplete, fun _ => ⟨_, rfl⟩⟩, fun fault => ?_⟩
    rw [← List.findSome?_eq_some_iff, hfirst]
    exact ⟨nofun, nofun⟩

/-- A module without a header. -/
def headless : Tree :=
  .node ⟨.moduleDeclaration, .origin, []⟩ []

/-- A conditional with a labelled block and a block without a label, and no `else` between them. -/
def cutIf : Tree :=
  .node ⟨.ifGenerate, .origin, [("block", 0), ("elseClause", 1)]⟩
    [sampleBlock [.node ⟨⟨"NamedBlockClause"⟩, .origin, []⟩ []],
      .node ⟨.elseClause, .origin, [("clause", 0)]⟩ [sampleBlock []]]

/-- With the rule on conditionals alone, a module without a header is reported on, and a conditional
that lacks its `else` makes the check fail; with all rules the module does so too. -/
theorem lint_builtIn_sample :
    let path : Path := ⟨.relative, ["a.sv"]⟩
    let c : Config := ⟨OrderedTable.ofList [(generateIfWithLabel.name, true)], []⟩
    (∃ failed, (ofConfig c).lint path headless = .ok failed) ∧
    (∃ fault, (ofConfig c).lint path cutIf = .error fault) ∧
    ∃ fault, (ofConfig Config.default.enableAll).lint path headless = .error fault := by
  intro path c
  refine ⟨(lint_builtIn c path headless).2.1.mpr ?_, (lint_builtIn c path cutIf).1.mpr (.inr ?_),
    (lint_builtIn _ path headless).1.mpr (.inl ?_)⟩
  · rintro (⟨henabled, -⟩ | ⟨-, node, hmem, hlacks⟩)
    · exact absurd henabled (by decide +kernel)
    · obtain rfl := List.mem_singleton.mp hmem
      cases hlacks
  · exact ⟨by decide +kernel, cutIf, List.mem_cons_self, by decide +kernel⟩
  · exact ⟨by decide +kernel, headless, List.mem_cons_self, rfl⟩

end Linter

end HdlLint
