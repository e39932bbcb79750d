import HdlLint.Config.Basic
import HdlLint.Plugin
import HdlLint.Syntax.Walk

/-!
# The linter

A linter holds a configuration and the registered rules, each under a name of its own. Every node
of a tree is shown to every rule, in the order of registration (`Linter.lint`). The names stand
beside the rules, in the same order; where a rule comes from is looked up by its name, and the name
of a broken rule by its place among the rules.

* `Linter.ofConfig` registers the enabled built-in rules;
* `Linter.register` and `Linter.load` add a rule and the rules of a plugin;
* `Linter.check` and `Linter.lint` find the broken rules at a node and in a tree.
-/

namespace HdlLint

/-- A rule as an object of its own. Two rules that do the same are told apart by their numbers. -/
structure RuleObject where
  number : Nat
  rule : Rule

namespace RuleObject

/-- Rules as objects, numbered from the given number on. -/
def numbered : (first : Nat) → List Rule → List RuleObject
  | _, [] => []
  | first, rule :: rules => ⟨first, rule⟩ :: numbered (first + 1) rules

end RuleObject

/-- The registered rules, in the order of registration. -/
structure Linter where
  config : Config
  rules : List RuleObject
  /-- The names of the rules, in the same order. -/
  names : List String
  /-- Where the rules come from, by their names. -/
  origins : OrderedTable String

namespace Linter

/-- The linter without rules. -/
def empty (config : Config) : Linter :=
  ⟨config, [], [], OrderedTable.empty⟩

/-- The origin of built-in rules. -/
def builtInOrigin : String :=
  "built-in rules"

/-- A number that no registered rule has. -/
def fresh (l : Linter) : Nat :=
  l.rules.foldl (fun n o => max n (o.number + 1)) 0

/-! ## Registration -/

/-- Registers a rule. Its name must be free. -/
def register (l : Linter) (o : RuleObject) (origin : String) : Linter × Option PluginFault :=
  match o.rule.name with
  | .error fault => (l, some (.nameless origin fault))
  | .ok value =>
    match l.origins.get? value.display with
    | some holder => (l, some (.taken value.display origin holder))
    | none =>
      ({ l with
        origins := l.origins.insert value.display origin
        names := l.names ++ [value.display]
        rules := l.rules ++ [o] }, none)

/-- Registers rules one after the other, up to the first one that cannot be registered. -/
def registerAll (origin : String) : Linter → List RuleObject → Linter × Option PluginFault
  | l, [] => (l, none)
  | l, o :: os =>
    match l.register o origin with
    | (l', some fault) => (l', some fault)
    | (l', none) => registerAll origin l' os

/-- The built-in rules that a configuration enables. -/
def enabledRules (config : Config) : List Rule :=
  (BuiltInRule.all.filter fun r => config.isEnabled r.name).map BuiltInRule.toRule

/-- Registers the built-in rules that a configuration enables. -/
def build (config : Config) : Linter × Option PluginFault :=
  registerAll builtInOrigin (empty config) (RuleObject.numbered 0 (enabledRules config))

/-- The linter with the built-in rules that a configuration enables. -/
def ofConfig (config : Config) : Linter :=
  (build config).1

/-- The origin of the rules of a plugin. -/
def pluginOrigin (path : Path) : String :=
  s!"plugin '{path}'"

/-- Registers the rules of a plugin, which are objects that no other rule is. Where one of them
cannot be registered, those before it stay. -/
def load (modules : PluginModules) (fs : FileSystem) (l : Linter) (path : Path) :
    Linter × Option PluginFault :=
  match modules.load fs path with
  | .error cause => (l, some (.load path cause))
  | .ok rules => registerAll (pluginOrigin path) l (RuleObject.numbered l.fresh rules)

/-! ## Dispatch -/

/-- Where the rule of a name comes from. A name that is not registered comes from nowhere. -/
def originOf (l : Linter) (name : String) : String :=
  (l.origins.get? name).getD ""

/-- The name at the place that a rule has among the rules. A rule that is not registered has no
name. -/
def nameOf (l : Linter) (o : RuleObject) : String :=
  l.names.getD (l.rules.findIdx fun r => r.number = o.number) ""

/-- What a rule of a name says of a node. -/
def ask (l : Linter) (root node : Tree) (o : RuleObject) (name : String) :
    Except PluginFault Verdict :=
  match o.rule.check root node with
  | .error fault => .error (.check name (l.originOf name) fault)
  | .ok (.stray value) => .error (.stray name (l.originOf name) value)
  | .ok (.hidden fault) => .error (.escaped name fault)
  | .ok (.verdict v) => .ok v

/-- The rules among the given ones, each with its name, that a node breaks, in order. -/
def broken (l : Linter) (root node : Tree) :
    List (RuleObject × String) → Except PluginFault (List (RuleObject × Verdict))
  | [] => .ok []
  | (o, name) :: entries =>
    match l.ask root node o name with
    | .error fault => .error fault
    | .ok v =>
      match l.broken root node entries with
      | .error fault => .error fault
      | .ok failures => .ok (if v.passed then failures else (o, v) :: failures)

/-- The rules that a node breaks. -/
def check (l : Linter) (root node : Tree) : Except PluginFault (List (RuleObject × Verdict)) :=
  l.broken root node (l.rules.zip l.names)

/-- What is told of a registered rule. -/
structure Description where
  name : String
  hint : String
  reason : String
deriving DecidableEq, Repr

/-- The name, the hint and the reason of a registered rule. -/
def describe (l : Linter) (o : RuleObject) : Except PluginFault Description :=
  let name := l.nameOf o
  match o.rule.hint with
  | .error fault => .error (.describe name (l.originOf name) fault)
  | .ok hint =>
    match o.rule.reason with
    | .error fault => .error (.describe name (l.originOf name) fault)
    | .ok reason => .ok ⟨name, hint.display, reason.display⟩

/-- The report of a broken rule at a node. Its place is looked for before the rule is described. -/
def report (l : Linter) (path : Path) (node : Tree) (o : RuleObject) (v : Verdict) :
    Except PluginFault Failed :=
  match v.locateFault? with
  | some fault => .error (.escaped (l.nameOf o) fault)
  | none =>
    let span := (v.rangeAt node).span path
    match l.describe o with
    | .error fault => .error fault
    | .ok d => .ok ⟨d.name, d.hint, d.reason, span.path, span.line, span.column, span.length⟩

/-- The reports of the rules that a node breaks. -/
def reportAll (l : Linter) (path : Path) (node : Tree) :
    List (RuleObject × Verdict) → Except PluginFault (List Failed)
  | [] => .ok []
  | (o, v) :: failures =>
    match l.report path node o v with
    | .error fault => .error fault
    | .ok failed =>
      match l.reportAll path node failures with
      | .error fault => .error fault
      | .ok rest => .ok (failed :: rest)

/-- The reports on some nodes of a tree, in order. -/
def lintNodes (l : Linter) (path : Path) (root : Tree) :
    List Tree → Except PluginFault (List Failed)
  | [] => .ok []
  | node :: nodes =>
    match l.check root node with
    | .error fault => .error fault
    | .ok failures =>
      match l.reportAll path node failures with
      | .error fault => .error fault
      | .ok failed =>
        match l.lintNodes path root nodes with
        | .error fault => .error fault
        | .ok rest => .ok (failed ++ rest)

/-- The reports on a tree that was read from a path. A node is shown to all rules before what is
below it. -/
def lint (l : Linter) (path : Path) (root : Tree) : Except PluginFault (List Failed) :=
  l.lintNodes path root root.nodes

end Linter

end HdlLint
