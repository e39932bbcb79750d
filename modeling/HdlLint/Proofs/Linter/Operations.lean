import HdlLint.Proofs.Linter.Registry

/-!
# Operations on a linter

Registering single rules and loading plugins, in any order, whether they succeed or fail
(`Operation`). Each operation adds entries to the registry and takes none away (`apply_extends`), so
the rules, the names and the origins of a linter stay in step (`runAll_registry`).
-/

namespace HdlLint.Linter

/-- Something that is done to the registry of a linter. -/
inductive Operation
  | register (o : RuleObject) (origin : String)
  /-- Loads a plugin from the files that there are by then. -/
  | load (modules : PluginModules) (fs : FileSystem) (path : Path)

/-- The linter behind an operation, and the fault if the operation fails. -/
def Operation.apply (l : Linter) : Operation → Linter × Option PluginFault
  | .register o origin => l.register o origin
  | .load modules fs path => l.load modules fs path

/-- The linter behind operations, each of which may succeed or fail. -/
def runAll (l : Linter) (ops : List Operation) : Linter :=
  ops.foldl (fun l op => (op.apply l).1) l

variable {l l' : Linter}

/-- What loading a plugin does: it fails without a trace because the plugin brings no rules, or it
adds these rules, all of them or those before the first one that cannot be registered. -/
theorem load_cases (modules : PluginModules) (fs : FileSystem) (l : Linter) (path : Path) :
    (∃ cause, modules.load fs path = .error cause ∧
      l.load modules fs path = (l, some (.load path cause))) ∨
    ∃ rules more l', modules.load fs path = .ok rules ∧ Extends l more l' ∧
      (∀ r ∈ more, r.origin = pluginOrigin path) ∧
      ((more.map (·.object.rule) = rules ∧ l.load modules fs path = (l', none)) ∨
        ∃ o after fault, rules = more.map (·.object.rule) ++ o.rule :: after ∧
          l'.register o (pluginOrigin path) = (l', some fault) ∧
          l.load modules fs path = (l', some fault)) := by
  cases hload : modules.load fs path with
  | error cause => exact .inl ⟨cause, rfl, by rw [load, hload]⟩
  | ok rules =>
    obtain ⟨more, l', hl', horigin, hcases⟩ :=
      registerAll_cases l (pluginOrigin path) (RuleObject.numbered l.fresh rules)
    refine .inr ⟨rules, more, l', rfl, hl', horigin, ?_⟩
    have hrules := RuleObject.map_rule_numbered l.fresh rules
    rw [load, hload]
    rcases hcases with ⟨hobjects, hall⟩ | ⟨o, after, fault, hobjects, hfail, hall⟩
    · rw [← hobjects, List.map_map] at hrules
      exact .inl ⟨hrules, hall⟩
    · rw [hobjects, List.map_append, List.map_map, List.map_cons] at hrules
      exact .inr ⟨o, after.map RuleObject.rule, fault, hrules.symm, hfail, hall⟩

/-- An operation adds entries and takes none away. -/
theorem apply_extends (l : Linter) (op : Operation) : ∃ more, Extends l more (op.apply l).1 := by
  cases op with
  | register o origin =>
    rw [Operation.apply]
    rcases register_cases l o origin with ⟨_, -, hr⟩ | ⟨_, _, -, -, hr⟩ | ⟨name, l', -, -, hr, hl'⟩
    · exact ⟨[], by rw [hr]; exact .refl l⟩
    · exact ⟨[], by rw [hr]; exact .refl l⟩
    · exact ⟨[⟨o, name, origin⟩], by rw [hr]; exact hl'⟩
  | load modules fs path =>
    rw [Operation.apply]
    rcases load_cases modules fs l path with ⟨_, -, hr⟩ | ⟨_, more, l', -, hl', -, hcases⟩
    · exact ⟨[], by rw [hr]; exact .refl l⟩
    · rcases hcases with ⟨-, hr⟩ | ⟨_, _, _, -, -, hr⟩
      · exact ⟨more, by rw [hr]; exact hl'⟩
      · exact ⟨more, by rw [hr]; exact hl'⟩

theorem runAll_holds {rs : List Registered} (h : Holds l rs) (ops : List Operation) :
    ∃ more, Holds (runAll l ops) (rs ++ more) := by
  induction ops generalizing l rs with
  | nil => exact ⟨[], by rw [List.append_nil]; exact h⟩
  | cons op ops ih =>
    obtain ⟨more, hmore⟩ := apply_extends l op
    obtain ⟨further, hfurther⟩ := ih (h.extends hmore)
    exact ⟨more ++ further, by rw [← List.append_assoc]; exact hfurther⟩

/-- A linter starts with the enabled built-in rules, in their order. Whatever is registered or loaded
then, successfully or not, its rules have different names, which stand beside the rules one by one
and are the names whose origins are known. An operation that succeeds adds its rules behind all
others; a registration that fails and a plugin that brings no rules change nothing; and a plugin of
which a rule cannot be registered adds the rules before that one. -/
theorem runAll_registry (config : Config) (ops : List Operation) :
    (build config).2 = none ∧
    (ofConfig config).rules.map (·.rule) = enabledRules config ∧
    (ofConfig config).names = BuiltInRule.names.filter config.isEnabled ∧
    let l := runAll (ofConfig config) ops
    l.names.Nodup ∧ l.rules.length = l.names.length ∧
    (∀ (i : Nat) (o : RuleObject) (name : String), l.rules[i]? = some o → l.names[i]? = some name →
      o.rule.told? = some name) ∧
    l.origins.names = l.names ∧
    (∀ o origin l', l.register o origin = (l', none) →
      ∃ name, Extends l [⟨o, name, origin⟩] l') ∧
    (∀ o origin l' fault, l.register o origin = (l', some fault) → l' = l) ∧
    (∀ modules fs path cause, modules.load fs path = .error cause →
      l.load modules fs path = (l, some (.load path cause))) ∧
    (∀ modules fs path rules, modules.load fs path = .ok rules →
      ∃ more l', Extends l more l' ∧ (∀ r ∈ more, r.origin = pluginOrigin path) ∧
        ((more.map (·.object.rule) = rules ∧ l.load modules fs path = (l', none)) ∨
          ∃ o after fault, rules = more.map (·.object.rule) ++ o.rule :: after ∧
            l'.register o (pluginOrigin path) = (l', some fault) ∧
            l.load modules fs path = (l', some fault))) := by
  obtain ⟨hbuild, hrules, hnames, rs, hrs, -⟩ := build_ok config
  obtain ⟨more, hl⟩ := runAll_holds hrs ops
  refine ⟨hbuild, ?_, hnames, hl.nodup_names, ?_, ?_, hl.names_origins, ?_, ?_, ?_, ?_⟩
  · rw [hrules, RuleObject.map_rule_numbered]
  · rw [hl.rules_eq, hl.names_eq, List.length_map, List.length_map]
  · intro i o name ho hname
    have htold := congrArg (·[i]?) hl.told?_rules
    simp only [List.getElem?_map, ho, hname, Option.map_some] at htold
    exact Option.some.inj htold
  · exact fun o origin l' h => extends_of_register h
  · exact fun o origin l' fault h => eq_of_register h
  · intro modules fs path cause hc
    rw [load, hc]
  · intro modules fs path rules hrules
    rcases load_cases modules fs (runAll (ofConfig config) ops) path with ⟨_, hc, -⟩ |
      ⟨_, more, l', hr, hl', horigin, hcases⟩
    · rw [hrules] at hc
      cases hc
    · rw [hrules] at hr
      obtain rfl := Except.ok.inj hr
      exact ⟨more, l', hl', horigin, hcases⟩

end HdlLint.Linter
