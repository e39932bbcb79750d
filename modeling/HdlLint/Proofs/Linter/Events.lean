import HdlLint.Proofs.Linter.Registry
import HdlLint.Proofs.Syntax.Preorder

/-!
# What happens when a tree is checked

Checking a tree is a sequence of steps (`Event`): at each node in pre-order every rule is shown the
node, and then the rules that it breaks are described. A linter whose rules are different objects
finds the name and the origin of each of them again (`Holds.nameOf`, `Holds.originOf`), so what it
tells of a tree is what these steps come to: `lint_eq_settle`.
-/

namespace HdlLint

namespace Registered

/-- The verdict of a rule on a node, if the node breaks the rule. -/
def failing? (r : Registered) (root node : Tree) : Option Verdict :=
  match r.object.rule.check root node with
  | .ok (.verdict v) => if v.passed then none else some v
  | _ => none

end Registered

/-- A rule that a node breaks. -/
structure Breach where
  node : Tree
  broken : Registered
  verdict : Verdict

namespace Breach

/-- The rules that a node breaks, in order. -/
def allAt (root : Tree) (rs : List Registered) (node : Tree) : List Breach :=
  rs.filterMap fun r => (r.failing? root node).map fun v => ⟨node, r, v⟩

/-- The rules that the nodes of a tree break, the nodes in pre-order. -/
def all (root : Tree) (rs : List Registered) : List Breach :=
  (root.preorder.filter Tree.isNode).flatMap (allAt root rs)

/-- The report on a broken rule with a hint and a reason. -/
def failed (path : Path) (b : Breach) (hint reason : Value) : Failed :=
  let span := (b.verdict.rangeAt b.node).span path
  ⟨b.broken.name, hint.display, reason.display, span.path, span.line, span.column, span.length⟩

/-- The report on a broken rule, if the verdict names a range and the rule can be described. -/
def failed? (path : Path) (b : Breach) : Option Failed :=
  match b.verdict.locateFault?, b.broken.object.rule.hint, b.broken.object.rule.reason with
  | none, .ok hint, .ok reason => some (b.failed path hint reason)
  | _, _, _ => none

end Breach

/-- A step of checking a tree. -/
inductive Event
  /-- A rule is shown a node. -/
  | check (node : Tree) (r : Registered)
  /-- A rule that a node breaks is described, at the range that the verdict names. -/
  | describe (b : Breach)

namespace Event

/-- The fault of a step, if it fails. -/
def fault? (root : Tree) : Event → Option PluginFault
  | .check node r =>
    match r.object.rule.check root node with
    | .error fault => some (.check r.name r.origin fault)
    | .ok (.stray value) => some (.stray r.name r.origin value)
    | .ok (.hidden fault) => some (.escaped r.name fault)
    | .ok (.verdict _) => none
  | .describe b =>
    match b.verdict.locateFault?, b.broken.object.rule.hint, b.broken.object.rule.reason with
    | some fault, _, _ => some (.escaped b.broken.name fault)
    | none, .error fault, _ => some (.describe b.broken.name b.broken.origin fault)
    | none, .ok _, .error fault => some (.describe b.broken.name b.broken.origin fault)
    | none, .ok _, .ok _ => none

/-- The report that a step gives. -/
def failed? (path : Path) : Event → Option Failed
  | .check .. => none
  | .describe b => b.failed? path

/-- The steps at a node: first all rules are shown it, then those that it breaks are described. -/
def allAt (root : Tree) (rs : List Registered) (node : Tree) : List Event :=
  rs.map (.check node) ++ (Breach.allAt root rs node).map .describe

/-- The steps of checking a tree, the nodes in pre-order. -/
def all (root : Tree) (rs : List Registered) : List Event :=
  (root.preorder.filter Tree.isNode).flatMap (allAt root rs)

/-- What steps come to: the fault of the first one that fails, or all reports. -/
def settle (path : Path) (root : Tree) (es : List Event) : Except PluginFault (List Failed) :=
  match es.findSome? (fault? root) with
  | some fault => .error fault
  | none => .ok (es.filterMap (failed? path))

variable {path : Path} {root : Tree} {es : List Event}

theorem settle_append (es es' : List Event) :
    settle path root (es ++ es') =
      match settle path root es with
      | .error fault => .error fault
      | .ok failed =>
        match settle path root es' with
        | .error fault => .error fault
        | .ok rest => .ok (failed ++ rest) := by
  unfold settle
  rw [List.findSome?_append]
  cases es.findSome? (fault? root) with
  | some fault => rfl
  | none =>
    rw [Option.none_or]
    cases es'.findSome? (fault? root) with
    | some fault => rfl
    | none => simp only [List.filterMap_append]

theorem settle_of_first {before after : List Event} {e : Event} {fault : PluginFault}
    (hes : es = before ++ e :: after) (hbefore : ∀ b ∈ before, b.fault? root = none)
    (he : e.fault? root = some fault) : settle path root es = .error fault := by
  rw [settle, hes, List.findSome?_append, List.findSome?_eq_none_iff.mpr hbefore, Option.none_or,
    List.findSome?_cons, he]

theorem filterMap_failed?_all (path : Path) (root : Tree) (rs : List Registered) :
    (all root rs).filterMap (failed? path) = (Breach.all root rs).filterMap (Breach.failed? path) := by
  have hchecks : ∀ node, (rs.map (Event.check node)).filterMap (failed? path) = [] := fun node => by
    rw [List.filterMap_map]
    exact List.filterMap_eq_nil_iff.mpr fun _ _ => rfl
  rw [all, Breach.all, List.filterMap_flatMap, List.filterMap_flatMap]
  congr 1
  funext node
  rw [allAt, List.filterMap_append, hchecks, List.nil_append, List.filterMap_map]
  rfl

theorem settle_eq_ok_iff {failed : List Failed} :
    settle path root es = .ok failed ↔
      (∀ e ∈ es, e.fault? root = none) ∧ failed = es.filterMap (failed? path) := by
  constructor
  · intro h
    have hnone : es.findSome? (fault? root) = none := by
      cases hes : es.findSome? (fault? root) with
      | none => rfl
      | some fault =>
        rw [settle, hes] at h
        cases h
    rw [settle, hnone] at h
    exact ⟨List.findSome?_eq_none_iff.mp hnone, (Except.ok.inj h).symm⟩
  · rintro ⟨h, rfl⟩
    rw [settle, List.findSome?_eq_none_iff.mpr h]

end Event

namespace Linter

variable {l : Linter} {rs : List Registered}

/-! ## Finding names and origins again -/

theorem Holds.originOf (h : Holds l rs) {r : Registered} (hr : r ∈ rs) :
    l.originOf r.name = r.origin := by
  have hnodup := h.nodup_names
  rw [h.names_eq] at hnodup
  rw [Linter.originOf, OrderedTable.get?, h.origins_eq]
  clear h
  induction rs with
  | nil => cases hr
  | cons r' rs ih =>
    rw [List.map_cons, List.nodup_cons] at hnodup
    rw [List.map_cons, lookupEntry]
    rcases List.mem_cons.mp hr with rfl | hr
    · rw [if_pos rfl]
      rfl
    · have hne : r'.name ≠ r.name := fun he => hnodup.1 (List.mem_map.mpr ⟨r, hr, he.symm⟩)
      rw [if_neg hne]
      exact ih hr hnodup.2

/-- The place of a rule among the rules is that of its name among the names. -/
theorem Holds.nameOf (h : Holds l rs) (hd : (l.rules.map (·.number)).Nodup) {r : Registered}
    (hr : r ∈ rs) : l.nameOf r.object = r.name := by
  rw [h.rules_eq] at hd
  rw [Linter.nameOf, h.rules_eq, h.names_eq]
  clear h
  induction rs with
  | nil => cases hr
  | cons r' rs ih =>
    rw [List.map_cons, List.map_cons, List.nodup_cons] at hd
    rw [List.map_cons, List.map_cons, List.findIdx_cons]
    rcases List.mem_cons.mp hr with rfl | hr
    · rw [decide_eq_true rfl]
      rfl
    · have hne : r'.object.number ≠ r.object.number := fun he =>
        hd.1 (List.mem_map.mpr ⟨r.object, List.mem_map_of_mem hr, he.symm⟩)
      rw [decide_eq_false hne]
      exact ih hd.2 hr

/-! ## One node -/

/-- Asking some of the rules goes as far as the first one that fails. -/
theorem broken_eq (h : Holds l rs) (root node : Tree) {part : List Registered} (hpart : part ⊆ rs) :
    l.broken root node (part.map fun r => (r.object, r.name)) =
      match (part.map (Event.check node)).findSome? (Event.fault? root) with
      | some fault => .error fault
      | none => .ok ((Breach.allAt root part node).map fun b => (b.broken.object, b.verdict)) := by
  induction part with
  | nil => rfl
  | cons r part ih =>
    obtain ⟨hr, hpart⟩ := List.cons_subset.mp hpart
    rw [List.map_cons, List.map_cons, broken, ask, h.originOf hr, List.findSome?_cons, Breach.allAt,
      Event.fault?]
    cases hcheck : r.object.rule.check root node with
    | error fault => rfl
    | ok reply =>
      cases reply with
      | stray value => rfl
      | hidden fault => rfl
      | verdict v =>
        dsimp only
        rw [ih hpart]
        cases (part.map (Event.check node)).findSome? (Event.fault? root) with
        | some fault => rfl
        | none =>
          dsimp only
          cases hv : v.passed with
          | true =>
            have hf : r.failing? root node = none := by
              simp only [Registered.failing?, hcheck, hv, if_true]
            rw [List.filterMap_cons_none (by rw [hf]; rfl)]
            rfl
          | false =>
            have hf : r.failing? root node = some v := by
              simp only [Registered.failing?, hcheck, hv]
              rfl
            rw [List.filterMap_cons_some (by rw [hf]; rfl)]
            rfl

theorem report_eq_settle (h : Holds l rs) (hd : (l.rules.map (·.number)).Nodup) (path : Path)
    (root : Tree) {b : Breach} (hb : b.broken ∈ rs) :
    Event.settle path root [.describe b] =
      match l.report path b.node b.broken.object b.verdict with
      | .error fault => .error fault
      | .ok failed => .ok [failed] := by
  rw [report, describe, h.nameOf hd hb, h.originOf hb, Event.settle, List.findSome?_cons, Event.fault?]
  cases hlocate : b.verdict.locateFault? with
  | some fault => rfl
  | none =>
  cases hhint : b.broken.object.rule.hint with
  | error fault => rfl
  | ok hint =>
    cases hreason : b.broken.object.rule.reason with
    | error fault => rfl
    | ok reason =>
      simp only [List.findSome?_nil, List.filterMap_cons, List.filterMap_nil, Event.failed?,
        Breach.failed?, hlocate, hhint, hreason, Breach.failed]

/-- Describing broken rules goes as far as the first one that cannot be described. -/
theorem reportAll_eq_settle (h : Holds l rs) (hd : (l.rules.map (·.number)).Nodup) (path : Path)
    (root node : Tree) {bs : List Breach} (hnode : ∀ b ∈ bs, b.node = node)
    (hrule : ∀ b ∈ bs, b.broken ∈ rs) :
    l.reportAll path node (bs.map fun b => (b.broken.object, b.verdict)) =
      Event.settle path root (bs.map .describe) := by
  induction bs with
  | nil => rfl
  | cons b bs ih =>
    obtain ⟨rfl, hnode⟩ := List.forall_mem_cons.mp hnode
    obtain ⟨hb, hrule⟩ := List.forall_mem_cons.mp hrule
    rw [List.map_cons, List.map_cons, ← List.singleton_append (x := Event.describe b),
      Event.settle_append, ← ih hnode hrule, report_eq_settle h hd path root hb, reportAll]
    cases l.report path b.node b.broken.object b.verdict <;> rfl

theorem Breach.mem_allAt {root node : Tree} {b : Breach} (hb : b ∈ Breach.allAt root rs node) :
    b.node = node ∧ b.broken ∈ rs := by
  obtain ⟨r, hr, hmap⟩ := List.mem_filterMap.mp hb
  obtain ⟨v, -, rfl⟩ := Option.map_eq_some_iff.mp hmap
  exact ⟨rfl, hr⟩

/-! ## Whole trees -/

theorem settle_allAt (h : Holds l rs) (hd : (l.rules.map (·.number)).Nodup) (path : Path)
    (root node : Tree) :
    Event.settle path root (Event.allAt root rs node) =
      match l.check root node with
      | .error fault => .error fault
      | .ok failures => l.reportAll path node failures := by
  have hzip : l.rules.zip l.names = rs.map fun r => (r.object, r.name) := by
    rw [h.rules_eq, h.names_eq, List.zip_map']
  rw [check, hzip, broken_eq h root node (List.Subset.refl rs), Event.allAt, Event.settle_append,
    Event.settle]
  cases (rs.map (Event.check node)).findSome? (Event.fault? root) with
  | some fault => rfl
  | none =>
    have hchecks : (rs.map (Event.check node)).filterMap (Event.failed? path) = [] := by
      rw [List.filterMap_map]
      exact List.filterMap_eq_nil_iff.mpr fun _ _ => rfl
    dsimp only
    rw [reportAll_eq_settle h hd path root node (fun b hb => (Breach.mem_allAt hb).1)
      (fun b hb => (Breach.mem_allAt hb).2), hchecks]
    cases Event.settle path root ((Breach.allAt root rs node).map .describe) <;> rfl

/-- What a linter tells of a tree is what the steps of checking it come to. -/
theorem lint_eq_settle (h : Holds l rs) (hd : (l.rules.map (·.number)).Nodup) (path : Path)
    (root : Tree) : l.lint path root = Event.settle path root (Event.all root rs) := by
  rw [lint, Tree.nodes_eq_preorder, Event.all]
  induction root.preorder.filter Tree.isNode with
  | nil => rfl
  | cons node nodes ih =>
    rw [List.flatMap_cons, Event.settle_append, settle_allAt h hd, ← ih, lintNodes]
    cases l.check root node with
    | error fault => rfl
    | ok failures => rfl

/-- A tree can be checked if no step fails; the reports are then those on all broken rules. -/
theorem lint_eq_ok_iff (h : Holds l rs) (hd : (l.rules.map (·.number)).Nodup) {path : Path}
    {root : Tree} {failed : List Failed} :
    l.lint path root = .ok failed ↔
      (∀ e ∈ Event.all root rs, e.fault? root = none) ∧
        failed = (Breach.all root rs).filterMap (Breach.failed? path) := by
  rw [lint_eq_settle h hd, Event.settle_eq_ok_iff, Event.filterMap_failed?_all]

end Linter

end HdlLint
