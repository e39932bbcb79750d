import HdlLint.Proofs.Linter.Events
import Mathlib.Data.List.Forall2

/-!
# What a linter tells of a tree

For a linter that was reached by registering different rules (`Reached`), what it tells of a tree is
fixed by the names and the origins of the registrations: one report for each rule that a node
breaks, or the fault of the first step that fails (`Reached.lint_steps`).
-/

namespace HdlLint

/-- A report on a rule that a node breaks: the name under which the rule was registered, its hint and
its reason, and the place that the verdict names. -/
structure Breach.Told (path : Path) (b : Breach) (failed : Failed) : Prop where
  name : failed.name = b.broken.name
  hint : ∃ v, b.broken.object.rule.hint = .ok v ∧ failed.hint = v.display
  reason : ∃ v, b.broken.object.rule.reason = .ok v ∧ failed.reason = v.display
  span : (⟨failed.path, failed.line, failed.column, failed.length⟩ : Span) =
    (b.verdict.rangeAt b.node).span path

theorem Breach.exists_told {root : Tree} {b : Breach} (h : (Event.describe b).fault? root = none)
    (path : Path) : ∃ failed, b.failed? path = some failed ∧ b.Told path failed := by
  rw [Event.fault?] at h
  split at h
  · cases h
  · cases h
  · cases h
  · next hint reason hlocate hhint hreason =>
    refine ⟨b.failed path hint reason, by rw [failed?, hlocate, hhint, hreason], ?_⟩
    exact ⟨rfl, ⟨hint, hhint, rfl⟩, ⟨reason, hreason, rfl⟩, rfl⟩

theorem Breach.forall₂_told {root : Tree} (path : Path) {bs : List Breach}
    (h : ∀ b ∈ bs, (Event.describe b).fault? root = none) :
    List.Forall₂ (Breach.Told path) bs (bs.filterMap (Breach.failed? path)) := by
  induction bs with
  | nil => exact .nil
  | cons b bs ih =>
    obtain ⟨hb, hbs⟩ := List.forall_mem_cons.mp h
    obtain ⟨failed, hfailed, htold⟩ := exists_told hb path
    rw [List.filterMap_cons_some hfailed]
    exact .cons htold (ih hbs)

theorem Event.describe_mem_all {root : Tree} {rs : List Registered} {b : Breach}
    (h : b ∈ Breach.all root rs) : .describe b ∈ Event.all root rs := by
  obtain ⟨node, hnode, hb⟩ := List.mem_flatMap.mp h
  exact List.mem_flatMap.mpr ⟨node, hnode, List.mem_append_right _ (List.mem_map_of_mem hb)⟩

namespace Linter

/-- The entries of the enabled built-in rules. -/
def builtInEntries (config : Config) : List Registered :=
  List.zipWith (fun o name => ⟨o, name, builtInOrigin⟩) (ofConfig config).rules
    (ofConfig config).names

/-- A linter that is reached by registering rules one after the other behind the enabled built-in
rules, with the entries of those that could be registered. -/
inductive Reached (config : Config) : Linter → List Registered → Prop
  | start : Reached config (ofConfig config) (builtInEntries config)
  | added {l l' : Linter} {rs : List Registered} {o : RuleObject} {origin name : String}
      (h : Reached config l rs) (hname : o.rule.told? = some name)
      (hr : l.register o origin = (l', none)) : Reached config l' (rs ++ [⟨o, name, origin⟩])
  | refused {l l' : Linter} {rs : List Registered} {o : RuleObject} {origin : String}
      {fault : PluginFault} (h : Reached config l rs) (hr : l.register o origin = (l', some fault)) :
      Reached config l' rs

theorem holds_builtInEntries (config : Config) : Holds (ofConfig config) (builtInEntries config) := by
  obtain ⟨-, -, -, rs, hrs, horigin⟩ := build_ok config
  have hentries : builtInEntries config = rs := by
    rw [builtInEntries, hrs.rules_eq, hrs.names_eq, List.zipWith_map, List.zipWith_self]
    refine (List.map_congr_left fun r hr => ?_).trans (List.map_id rs)
    rw [← horigin r hr]
    rfl
  rw [hentries]
  exact hrs

namespace Reached

variable {config : Config} {l : Linter} {rs : List Registered}

theorem holds (h : Reached config l rs) : Holds l rs := by
  induction h with
  | start => exact holds_builtInEntries config
  | @added l l' rs _ o origin name hname hr ih =>
    obtain ⟨told, hl'⟩ := extends_of_register hr
    have htold := hl'.told _ List.mem_cons_self
    rw [hname] at htold
    obtain rfl := Option.some.inj htold
    exact ih.extends hl'
  | refused _ hr ih =>
    obtain rfl := eq_of_register hr
    exact ih

/-- Checking a tree with rules that are different objects shows each node in pre-order to all rules in
the order of registration, and then describes those that it breaks. Where no step fails, there is
one report for each rule that a node breaks, in this order; else the fault is that of the first
step that fails, with the name and the origin of the rule as they were registered. A step fails where
a rule raises a fault or answers with what is no verdict, where a verdict names what is no range, and
where a hint or a reason cannot be told; faults that nothing catches are among these
(`PluginFault.escaped`, `Fault.escapes`). -/
theorem lint_steps (h : Reached config l rs) (hd : (rs.map (·.object.number)).Nodup) (path : Path)
    (root : Tree) :
    ((∀ e ∈ Event.all root rs, e.fault? root = none) →
      ∃ failed, l.lint path root = .ok failed ∧
        List.Forall₂ (Breach.Told path) (Breach.all root rs) failed) ∧
    ∀ before e after fault, Event.all root rs = before ++ e :: after →
      (∀ b ∈ before, b.fault? root = none) → e.fault? root = some fault →
      l.lint path root = .error fault := by
  have hl := h.holds
  have hd' : (l.rules.map (·.number)).Nodup := by
    rw [hl.rules_eq, List.map_map]
    exact hd
  constructor
  · intro hall
    refine ⟨_, (lint_eq_ok_iff hl hd').mpr ⟨hall, rfl⟩, ?_⟩
    exact Breach.forall₂_told path fun b hb => hall _ (Event.describe_mem_all hb)
  · intro before e after fault hevents hbefore he
    rw [lint_eq_settle hl hd']
    exact Event.settle_of_first hevents hbefore he

end Reached

/-! ## Two rules and two trees -/

/-- A rule that forbids nodes of a kind, as an object. -/
def forbids (number : Nat) (name : String) (kind : NodeKind) (hint : Except Fault Value) :
    RuleObject :=
  ⟨number, ⟨fun _ node => .ok (.verdict (if node.hasKind kind then .fail else .pass)),
    .ok (.text name), hint, .ok (.text "")⟩⟩

/-- A rule that forbids modules. -/
def noModule : RuleObject :=
  forbids 0 "no_module" .moduleDeclaration (.ok (.text "use an interface"))

/-- A rule that forbids generate regions and cannot tell what to do instead. -/
def noRegion : RuleObject :=
  forbids 1 "no_region" .generateRegion (.error (.raise "KeyError" []))

/-- The entries of these rules. -/
def sampleEntries : List Registered :=
  [⟨noModule, "no_module", "here"⟩, ⟨noRegion, "no_region", "there"⟩]

/-- A linter with these rules. -/
def twoRules : Linter :=
  ((((ofConfig ⟨OrderedTable.empty, []⟩).register noModule "here").1).register noRegion "there").1

/-- A generate region. -/
def sampleRegion : Tree :=
  .node ⟨.generateRegion, .origin, []⟩ []

/-- A module. -/
def sampleModule (children : List Tree) : Tree :=
  .node ⟨.moduleDeclaration, .origin, []⟩ children

theorem reached_twoRules : Reached ⟨OrderedTable.empty, []⟩ twoRules sampleEntries :=
  .added (.added .start rfl rfl) rfl rfl

/-- An empty module is reported on by its rule. With a generate region in it, the region is shown to
both rules, and then the hint of the second one cannot be told. -/
theorem lint_steps_twoRules :
    let path : Path := ⟨.relative, ["a.sv"]⟩
    Reached ⟨OrderedTable.empty, []⟩ twoRules sampleEntries ∧
    (sampleEntries.map (·.object.number)).Nodup ∧
    (∃ failed, twoRules.lint path (sampleModule []) = .ok [failed] ∧ failed.name = "no_module") ∧
    twoRules.lint path (sampleModule [sampleRegion]) =
      .error (.describe "no_region" "there" (.raise "KeyError" [])) := by
  intro path
  have hd : (sampleEntries.map (·.object.number)).Nodup := by decide
  refine ⟨reached_twoRules, hd, ?_, ?_⟩
  · have hall : ∀ e ∈ Event.all (sampleModule []) sampleEntries, e.fault? (sampleModule []) = none :=
      List.forall_mem_cons.mpr ⟨rfl, List.forall_mem_cons.mpr ⟨rfl, List.forall_mem_singleton.mpr rfl⟩⟩
    obtain ⟨failed, hlint, htold⟩ := (reached_twoRules.lint_steps hd path (sampleModule [])).1 hall
    obtain ⟨failed, rfl⟩ := List.length_eq_one_iff.mp htold.length_eq.symm
    exact ⟨failed, hlint, (List.forall₂_cons.mp htold).1.name⟩
  · let before : List Event := [.check (sampleModule [sampleRegion]) ⟨noModule, "no_module", "here"⟩,
      .check (sampleModule [sampleRegion]) ⟨noRegion, "no_region", "there"⟩,
      .describe ⟨sampleModule [sampleRegion], ⟨noModule, "no_module", "here"⟩, .fail⟩,
      .check sampleRegion ⟨noModule, "no_module", "here"⟩,
      .check sampleRegion ⟨noRegion, "no_region", "there"⟩]
    refine (reached_twoRules.lint_steps hd path _).2 before
      (.describe ⟨sampleRegion, ⟨noRegion, "no_region", "there"⟩, .fail⟩) [] _ rfl ?_ rfl
    simp only [before, List.forall_mem_cons]
    exact ⟨rfl, rfl, rfl, rfl, rfl, nofun⟩

end Linter

end HdlLint
