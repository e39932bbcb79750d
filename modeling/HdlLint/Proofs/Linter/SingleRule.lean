import HdlLint.Linter

/-!
# Linters with one rule

With a configuration that enables one built-in rule alone, checking a tree asks that rule about each
node, in order, and tells of each node that breaks it (`lintNodes_single`).
-/

namespace HdlLint

namespace BuiltInRule

/-- The report of a rule on a range of a file. -/
def report (r : BuiltInRule) (path : Path) (range : Range) : Failed :=
  let span := range.span path
  ⟨r.name, r.hint, r.reason, span.path, span.line, span.column, span.length⟩

/-- What a verdict on a node comes to. -/
def reports (r : BuiltInRule) (path : Path) (node : Tree) (v : Verdict) : List Failed :=
  if v.passed then [] else [r.report path (v.rangeAt node)]

theorem filter_name_eq {r : BuiltInRule} (hr : r ∈ all) :
    all.filter (fun s => s.name = r.name) = [r] := by
  simp only [all, List.mem_cons, List.not_mem_nil, or_false] at hr
  rcases hr with rfl | rfl | rfl | rfl | rfl | rfl <;> rfl

theorem locateFault?_ite {p : Prop} [Decidable p] {v v' : Verdict} (hv : v.locateFault? = none)
    (hv' : v'.locateFault? = none) : (if p then v else v').locateFault? = none := by
  split
  · exact hv
  · exact hv'

/-- The verdicts of built-in rules name ranges. -/
theorem locateFault?_of_check {r : BuiltInRule} (hr : r ∈ all) {node : Tree} {v : Verdict}
    (hv : r.check node = .ok v) : v.locateFault? = none := by
  simp only [all, List.mem_cons, List.not_mem_nil, or_false] at hr
  rcases hr with rfl | rfl | rfl | rfl | rfl | rfl
  · exact Except.ok.inj hv ▸ locateFault?_ite rfl rfl
  · simp only [generateIfWithLabel] at hv
    repeat' split at hv
    all_goals cases hv <;> rfl
  · exact Except.ok.inj hv ▸ locateFault?_ite rfl rfl
  · simp only [nonAnsiModule] at hv
    cases hports : node.modulePorts with
    | error fault =>
      rw [hports] at hv
      cases hv
    | ok ports =>
      rw [hports] at hv
      exact Except.ok.inj hv ▸ locateFault?_ite rfl rfl
  · exact Except.ok.inj hv ▸ locateFault?_ite rfl rfl
  · exact Except.ok.inj hv ▸ locateFault?_ite rfl rfl

end BuiltInRule

/-- Whether a configuration enables one of the built-in rules alone. -/
def Config.EnablesOnly (c : Config) (r : BuiltInRule) : Prop :=
  ∀ s ∈ BuiltInRule.all, c.isEnabled s.name = decide (s.name = r.name)

namespace Linter

variable {c : Config} {r : BuiltInRule}

theorem enabledRules_single (hr : r ∈ BuiltInRule.all) (hc : c.EnablesOnly r) :
    enabledRules c = [r.toRule] := by
  rw [enabledRules, List.filter_congr hc, BuiltInRule.filter_name_eq hr, List.map_singleton]

theorem ofConfig_single (hr : r ∈ BuiltInRule.all) (hc : c.EnablesOnly r) :
    ofConfig c = ⟨c, [⟨0, r.toRule⟩], [r.name], OrderedTable.empty.insert r.name builtInOrigin⟩ := by
  rw [ofConfig, build, enabledRules_single hr hc]
  rfl

/-- A linter with one built-in rule tells of the nodes that break it, if the rule answers. -/
theorem lintNodes_single (hr : r ∈ BuiltInRule.all) (hc : c.EnablesOnly r) (path : Path)
    (root : Tree) {verdict : Tree → Verdict} {nodes : List Tree}
    (hcheck : ∀ node ∈ nodes, r.check node = .ok (verdict node)) :
    (ofConfig c).lintNodes path root nodes =
      .ok (nodes.flatMap fun node => r.reports path node (verdict node)) := by
  rw [ofConfig_single hr hc]
  induction nodes with
  | nil => rfl
  | cons node nodes ih =>
    obtain ⟨hnode, hnodes⟩ := List.forall_mem_cons.mp hcheck
    have hask : r.toRule.check root node = .ok (.verdict (verdict node)) :=
      congrArg (Except.map Reply.verdict) hnode
    rw [lintNodes, ih hnodes, List.flatMap_cons, BuiltInRule.reports]
    simp only [check, List.zip_cons_cons, List.zip_nil_left, broken, ask, hask]
    have hlocate := BuiltInRule.locateFault?_of_check hr hnode
    cases (verdict node).passed with
    | true => rfl
    | false =>
      simp only [Bool.false_eq_true, if_false, reportAll, report, hlocate]
      rfl

end Linter

end HdlLint
