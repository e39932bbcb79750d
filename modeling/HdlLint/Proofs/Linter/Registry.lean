import HdlLint.Linter
import HdlLint.Proofs.OrderedTable.Update

/-!
# The registry of a linter

What registering rules does to a linter. The rules, their names and their origins stand for one
list of entries (`Extends`): a registration that succeeds adds an entry to each of them, one that
fails changes nothing (`register_cases`), and the rules of a plugin are registered up to the first
one that fails (`registerAll_cases`). `runAll_registry` puts it together for any operations on a
linter.
-/

namespace HdlLint

/-- An entry of the registry: a rule, and the name and the origin under which it was registered. -/
structure Registered where
  object : RuleObject
  name : String
  origin : String

/-- The name that a rule tells, if it can. -/
def Rule.told? (r : Rule) : Option String :=
  r.name.toOption.map Value.display

theorem Rule.told?_of_ok {r : Rule} {v : Value} (h : r.name = .ok v) : r.told? = some v.display := by
  rw [told?, h]
  rfl

theorem BuiltInRule.nodup_names : BuiltInRule.names.Nodup := by
  decide

theorem RuleObject.map_rule_numbered (first : Nat) (rules : List Rule) :
    (numbered first rules).map RuleObject.rule = rules := by
  induction rules generalizing first with
  | nil => rfl
  | cons rule rules ih => rw [numbered, List.map_cons, ih]

namespace OrderedTable

variable {α : Type} {t : OrderedTable α} {name : String}

theorem entries_insert_of_get?_eq_none (h : t.get? name = none) (value : α) :
    (t.insert name value).entries = t.entries ++ [(name, value)] :=
  writeEntry_of_not_mem (get?_eq_none_iff.mp h) value

end OrderedTable

namespace Linter

variable {l l' l'' : Linter}

/-! ## Entries -/

/-- A linter that arises from another one by adding entries to its registry, behind all others.
The name of an entry is the one that its rule tells. -/
structure Extends (l : Linter) (more : List Registered) (l' : Linter) : Prop where
  config : l'.config = l.config
  rules : l'.rules = l.rules ++ more.map (·.object)
  names : l'.names = l.names ++ more.map (·.name)
  origins : l'.origins.entries = l.origins.entries ++ more.map fun r => (r.name, r.origin)
  told : ∀ r ∈ more, r.object.rule.told? = some r.name

theorem Extends.refl (l : Linter) : Extends l [] l :=
  ⟨rfl, by simp, by simp, by simp, by simp⟩

theorem Extends.trans {more further : List Registered} (h : Extends l more l')
    (h' : Extends l' further l'') : Extends l (more ++ further) l'' where
  config := h'.config.trans h.config
  rules := by rw [h'.rules, h.rules, List.map_append, List.append_assoc]
  names := by rw [h'.names, h.names, List.map_append, List.append_assoc]
  origins := by rw [h'.origins, h.origins, List.map_append, List.append_assoc]
  told := List.forall_mem_append.mpr ⟨h.told, h'.told⟩

/-- A linter whose registry consists of some entries. -/
abbrev Holds (l : Linter) (rs : List Registered) : Prop :=
  Extends (empty l.config) rs l

section Holds

variable {rs : List Registered} (h : Holds l rs)
include h

theorem Holds.rules_eq : l.rules = rs.map (·.object) := h.rules

theorem Holds.names_eq : l.names = rs.map (·.name) := h.names

theorem Holds.origins_eq : l.origins.entries = rs.map fun r => (r.name, r.origin) := h.origins

theorem Holds.names_origins : l.origins.names = l.names := by
  rw [OrderedTable.names, h.origins_eq, h.names_eq, List.map_map]
  rfl

/-- The names stand beside the rules that tell them. -/
theorem Holds.told?_rules : l.rules.map (·.rule.told?) = l.names.map some := by
  rw [h.rules_eq, h.names_eq, List.map_map, List.map_map]
  exact List.map_congr_left h.told

theorem Holds.nodup_names : l.names.Nodup := by
  rw [← h.names_origins]
  exact l.origins.nodup

theorem Holds.extends {more : List Registered} (h' : Extends l more l') : Holds l' (rs ++ more) := by
  rw [Holds, h'.config]
  exact h.trans h'

end Holds

/-! ## Registration -/

/-- What a registration does: it fails without a trace because the rule cannot tell its name or the
name is taken, or it adds an entry. -/
theorem register_cases (l : Linter) (o : RuleObject) (origin : String) :
    (∃ fault, o.rule.name = .error fault ∧
      l.register o origin = (l, some (.nameless origin fault))) ∨
    (∃ name holder, o.rule.told? = some name ∧ l.origins.get? name = some holder ∧
      l.register o origin = (l, some (.taken name origin holder))) ∨
    (∃ name l', o.rule.told? = some name ∧ name ∉ l.origins.names ∧
      l.register o origin = (l', none) ∧ Extends l [⟨o, name, origin⟩] l') := by
  cases hname : o.rule.name with
  | error fault => exact .inl ⟨fault, rfl, by rw [register, hname]⟩
  | ok v =>
    have htold := Rule.told?_of_ok hname
    refine .inr ?_
    cases horigin : l.origins.get? v.display with
    | some holder =>
      exact .inl ⟨v.display, holder, htold, horigin, by simp only [register, hname, horigin]⟩
    | none =>
      have hr : l.register o origin = (⟨l.config, l.rules ++ [o], l.names ++ [v.display],
          l.origins.insert v.display origin⟩, none) := by
        simp only [register, hname, horigin]
      refine .inr ⟨v.display, _, htold, OrderedTable.get?_eq_none_iff.mp horigin, hr, ?_⟩
      exact ⟨rfl, rfl, rfl, OrderedTable.entries_insert_of_get?_eq_none horigin origin,
        List.forall_mem_singleton.mpr htold⟩

theorem extends_of_register {o : RuleObject} {origin : String} (h : l.register o origin = (l', none)) :
    ∃ name, Extends l [⟨o, name, origin⟩] l' := by
  rcases register_cases l o origin with ⟨_, -, hr⟩ | ⟨_, _, -, -, hr⟩ | ⟨name, l₁, -, -, hr, hl₁⟩
  · rw [hr] at h
    cases h
  · rw [hr] at h
    cases h
  · rw [hr] at h
    cases h
    exact ⟨name, hl₁⟩

/-- A registration that fails changes nothing. -/
theorem eq_of_register {o : RuleObject} {origin : String} {fault : PluginFault}
    (h : l.register o origin = (l', some fault)) : l' = l := by
  rcases register_cases l o origin with ⟨_, -, hr⟩ | ⟨_, _, -, -, hr⟩ | ⟨_, _, -, -, hr, -⟩
  all_goals
    rw [hr] at h
    cases h
  · rfl
  · rfl

/-- Rules that are registered one after the other are all added, or those before the first one
that cannot be registered. -/
theorem registerAll_cases (l : Linter) (origin : String) (os : List RuleObject) :
    ∃ more l', Extends l more l' ∧ (∀ r ∈ more, r.origin = origin) ∧
      ((more.map (·.object) = os ∧ registerAll origin l os = (l', none)) ∨
        ∃ o after fault, os = more.map (·.object) ++ o :: after ∧
          l'.register o origin = (l', some fault) ∧ registerAll origin l os = (l', some fault)) := by
  induction os generalizing l with
  | nil => exact ⟨[], l, .refl l, by simp, .inl ⟨rfl, rfl⟩⟩
  | cons o os ih =>
    rcases register_cases l o origin with ⟨_, -, hr⟩ | ⟨_, _, -, -, hr⟩ | ⟨name, l₁, -, -, hr, hl₁⟩
    · exact ⟨[], l, .refl l, by simp, .inr ⟨o, os, _, rfl, hr, by rw [registerAll, hr]⟩⟩
    · exact ⟨[], l, .refl l, by simp, .inr ⟨o, os, _, rfl, hr, by rw [registerAll, hr]⟩⟩
    · obtain ⟨more, l', hl', horigin, hcases⟩ := ih l₁
      refine ⟨⟨o, name, origin⟩ :: more, l', hl₁.trans hl',
        List.forall_mem_cons.mpr ⟨rfl, horigin⟩, ?_⟩
      rw [registerAll, hr, List.map_cons]
      rcases hcases with ⟨rfl, hall⟩ | ⟨o', after, fault, rfl, hfail, hall⟩
      · exact .inl ⟨rfl, hall⟩
      · exact .inr ⟨o', after, fault, rfl, hfail, hall⟩

/-- Rules that tell different new names can all be registered. -/
theorem registerAll_ok (origin : String) {os : List RuleObject} {names : List String}
    (htold : os.map (·.rule.told?) = names.map some) (hnodup : names.Nodup)
    (hnew : ∀ name ∈ names, name ∉ l.origins.names) : (registerAll origin l os).2 = none := by
  induction os generalizing l names with
  | nil => rfl
  | cons o os ih =>
    obtain ⟨name, names, rfl⟩ : ∃ name rest, names = name :: rest := by
      cases names with
      | nil => cases htold
      | cons name rest => exact ⟨name, rest, rfl⟩
    rw [List.map_cons, List.map_cons, List.cons.injEq] at htold
    rw [List.nodup_cons] at hnodup
    rcases register_cases l o origin with ⟨_, hname, -⟩ | ⟨other, _, hother, hheld, -⟩ |
      ⟨other, l₁, hother, -, hr, hl₁⟩
    · rw [Rule.told?, hname] at htold
      cases htold.1
    · rw [htold.1] at hother
      obtain rfl := Option.some.inj hother
      rw [OrderedTable.get?_eq_none_iff.mpr (hnew name List.mem_cons_self)] at hheld
      cases hheld
    · rw [htold.1] at hother
      obtain rfl := Option.some.inj hother
      rw [registerAll, hr]
      refine ih htold.2 hnodup.2 fun n hn hmem => ?_
      rw [OrderedTable.names, hl₁.origins, List.map_append, List.mem_append] at hmem
      rcases hmem with hmem | hmem
      · exact hnew n (List.mem_cons_of_mem _ hn) hmem
      · obtain rfl := List.mem_singleton.mp hmem
        exact hnodup.1 hn

/-! ## Built-in rules -/

theorem told?_enabledRules (config : Config) :
    (enabledRules config).map Rule.told? = (BuiltInRule.names.filter config.isEnabled).map some := by
  rw [enabledRules, BuiltInRule.names, List.filter_map, List.map_map, List.map_map]
  rfl

/-- The built-in rules that are enabled are all registered. -/
theorem build_ok (config : Config) :
    (build config).2 = none ∧ (ofConfig config).rules = RuleObject.numbered 0 (enabledRules config) ∧
      (ofConfig config).names = BuiltInRule.names.filter config.isEnabled ∧
      ∃ rs, Holds (ofConfig config) rs ∧ ∀ r ∈ rs, r.origin = builtInOrigin := by
  have htold : (RuleObject.numbered 0 (enabledRules config)).map (·.rule.told?) =
      (BuiltInRule.names.filter config.isEnabled).map some := by
    rw [← told?_enabledRules, ← RuleObject.map_rule_numbered 0 (enabledRules config), List.map_map,
      RuleObject.map_rule_numbered]
    rfl
  have hok : (build config).2 = none :=
    registerAll_ok builtInOrigin htold (BuiltInRule.nodup_names.filter _) fun _ _ => by simp [empty]
  obtain ⟨rs, l', hl', horigin, hcases⟩ := registerAll_cases (empty config) builtInOrigin
    (RuleObject.numbered 0 (enabledRules config))
  rcases hcases with ⟨hobjects, hall⟩ | ⟨_, _, _, -, -, hall⟩
  · have hl : Holds (ofConfig config) rs := by
      rw [ofConfig, build, hall, Holds, hl'.config]
      exact hl'
    have hrules := hl.rules_eq.trans hobjects
    refine ⟨hok, hrules, ?_, rs, hl, horigin⟩
    have hnames := hl.told?_rules
    rw [hrules, htold] at hnames
    exact ((List.map_inj_right fun _ _ => Option.some.inj).mp hnames).symm
  · rw [build, hall] at hok
    cases hok

end Linter

end HdlLint
