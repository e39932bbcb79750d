import HdlLint.Proofs.Linter.Events
import Mathlib.Data.List.Basic

/-!
# A linter with some of the rules of another one

A rule is shown the same nodes whatever other rules there are, and it is found again under its name
wherever it stands. So where all rules answer for a tree, some of them do too, and they report what
they report among all (`lint_part`).
-/

namespace HdlLint

/-- The numbers of rules tell them apart. -/
def RuleObject.Distinguished (os : List RuleObject) : Prop :=
  ∀ o ∈ os, ∀ o' ∈ os, o.number = o'.number → o = o'

theorem Breach.name_failed? {path : Path} {b : Breach} {failed : Failed}
    (h : b.failed? path = some failed) : failed.name = b.broken.name := by
  rw [failed?] at h
  split at h
  · rw [← Option.some.inj h]
    rfl
  · cases h

namespace Linter

variable {l s : Linter} {rs ss : List Registered}

/-- Rules with different names are different objects. -/
theorem Holds.nodup_numbers (h : Holds l rs) (hd : RuleObject.Distinguished l.rules) :
    (l.rules.map (·.number)).Nodup := by
  have hnames := h.nodup_names
  rw [h.names_eq, List.Nodup, List.pairwise_map] at hnames
  rw [h.rules_eq, List.map_map, List.Nodup, List.pairwise_map]
  refine hnames.imp_of_mem fun {r r'} hr hr' hne heq => hne ?_
  have hobject : r.object = r'.object := by
    refine hd _ ?_ _ ?_ heq
    · rw [h.rules_eq]
      exact List.mem_map_of_mem hr
    · rw [h.rules_eq]
      exact List.mem_map_of_mem hr'
  have htold := h.told r hr
  rw [hobject, h.told r' hr'] at htold
  exact (Option.some.inj htold).symm

theorem Holds.distinguished_part (hl : Holds l rs) (hs : Holds s ss) (hsub : ss.Sublist rs)
    (hd : RuleObject.Distinguished l.rules) : RuleObject.Distinguished s.rules := by
  rw [hl.rules_eq] at hd
  rw [hs.rules_eq]
  have hmem := (hsub.map (·.object)).subset
  exact fun o ho o' ho' => hd o (hmem ho) o' (hmem ho')

/-- Of entries with different names, some are those that have one of their names. -/
theorem eq_filter_of_sublist (hsub : ss.Sublist rs) (hnodup : (rs.map (·.name)).Nodup) :
    ss = rs.filter fun r => r.name ∈ ss.map (·.name) := by
  induction hsub with
  | slnil => rfl
  | @cons ss rs r hsub ih =>
    rw [List.map_cons, List.nodup_cons] at hnodup
    have hr : r.name ∉ ss.map (·.name) := fun h => hnodup.1 ((hsub.map _).subset h)
    rw [List.filter_cons_of_neg (by simpa using hr)]
    exact ih hnodup.2
  | @cons_cons ss rs r hsub ih =>
    rw [List.map_cons, List.nodup_cons] at hnodup
    rw [List.filter_cons_of_pos (by simp)]
    refine congrArg (r :: ·) ((ih hnodup.2).trans (List.filter_congr fun r' hr' => ?_))
    have hne : r'.name ≠ r.name := fun h => hnodup.1 (h ▸ List.mem_map_of_mem hr')
    simp [hne]

theorem Breach.allAt_filter (root : Tree) (keep : String → Bool) (node : Tree) :
    Breach.allAt root (rs.filter fun r => keep r.name) node =
      (Breach.allAt root rs node).filter fun b => keep b.broken.name := by
  rw [Breach.allAt, Breach.allAt, List.filterMap_filter, List.filter_filterMap]
  refine List.filterMap_congr fun r _ => ?_
  cases r.failing? root node with
  | none => simp
  | some v => rw [Option.map_some, Option.filter_some]

theorem Breach.all_filter (root : Tree) (keep : String → Bool) :
    Breach.all root (rs.filter fun r => keep r.name) =
      (Breach.all root rs).filter fun b => keep b.broken.name := by
  rw [Breach.all, Breach.all, List.filter_flatMap]
  exact congrArg (List.flatMap · _) (funext (Breach.allAt_filter root keep))

/-- The reports on the rules of some names are the reports of these names. -/
theorem Breach.filterMap_failed?_filter (path : Path) (keep : String → Bool) (bs : List Breach) :
    (bs.filter fun b => keep b.broken.name).filterMap (Breach.failed? path) =
      (bs.filterMap (Breach.failed? path)).filter fun f => keep f.name := by
  rw [List.filterMap_filter, List.filter_filterMap]
  refine List.filterMap_congr fun b _ => ?_
  cases hb : b.failed? path with
  | none => simp
  | some failed => rw [Option.filter_some, Breach.name_failed? hb]

theorem Event.mem_all_of_subset {root : Tree} {e : Event} (hsub : ss ⊆ rs)
    (he : e ∈ Event.all root ss) : e ∈ Event.all root rs := by
  obtain ⟨node, hnode, he⟩ := List.mem_flatMap.mp he
  refine List.mem_flatMap.mpr ⟨node, hnode, ?_⟩
  rcases List.mem_append.mp he with he | he
  · exact List.mem_append_left _ (List.map_subset _ hsub he)
  · refine List.mem_append_right _ (List.map_subset _ (fun b hb => ?_) he)
    obtain ⟨r, hr, hb⟩ := List.mem_filterMap.mp hb
    exact List.mem_filterMap.mpr ⟨r, hsub hr, hb⟩

/-- Some of the rules of a linter report on a tree what they report among all rules. -/
theorem lint_part (hl : Holds l rs) (hs : Holds s ss) (hsub : ss.Sublist rs)
    (hd : RuleObject.Distinguished l.rules) {path : Path} {root : Tree} {failed : List Failed}
    (h : l.lint path root = .ok failed) :
    s.lint path root = .ok (failed.filter fun f => f.name ∈ s.names) := by
  obtain ⟨hall, rfl⟩ := (lint_eq_ok_iff hl (hl.nodup_numbers hd)).mp h
  refine (lint_eq_ok_iff hs (hs.nodup_numbers (hl.distinguished_part hs hsub hd))).mpr
    ⟨fun e he => hall e (Event.mem_all_of_subset hsub.subset he), ?_⟩
  have hnodup := hl.nodup_names
  rw [hl.names_eq] at hnodup
  have hss : ss = rs.filter fun r => r.name ∈ s.names := by
    rw [hs.names_eq]
    exact eq_filter_of_sublist hsub hnodup
  rw [← Breach.filterMap_failed?_filter path fun name => name ∈ s.names,
    ← Breach.all_filter root fun name => name ∈ s.names, ← hss]

end Linter

end HdlLint
