import HdlLint.FileSystem
import HdlLint.Rule.Basic

/-!
# Plugins

A plugin is a module with an entry point that gives one rule or several. `PluginModules.load`
collects the rules of the plugin at a path; `PluginFault` lists what can go wrong, from the loading
of a plugin to the answers of its rules. Some of it is not caught, and then there is no message
(`LoadFault.message?`, `PluginFault.message?`).

Left out is what a plugin does beside giving rules: to files, to what is printed, to other modules
and to the program that loads it. Its code comes to an end, and its objects equal no others.
-/

namespace HdlLint

/-- What an entry point gives. -/
inductive Contribution
  /-- An object that is meant as a rule; it is complete if it answers all four questions. -/
  | rule (r : Rule) (complete : Bool)
  | list (items : List Contribution)
  | value (v : Value)
  /-- An object that raises a fault when it is gone through, as it is written. -/
  | unlistable (shown : String) (fault : Fault)
  /-- An object that raises a fault when it is looked at. -/
  | hidden (fault : Fault)

/-- What a module does when it is loaded and its entry point is called. -/
inductive PluginModule
  /-- There is no module yet to load: making one raises a fault. -/
  | unmade (fault : Fault)
  /-- Loading raises a fault. -/
  | broken (fault : Fault)
  | noEntry
  /-- Looking for the entry point raises a fault. -/
  | hiddenEntry (fault : Fault)
  /-- The entry point raises a fault. -/
  | entryRaises (fault : Fault)
  | returns (c : Contribution)

/-- The modules that can be loaded, by the places of their files. -/
structure PluginModules where
  modules : List (List String × PluginModule)

/-- Why a plugin cannot be loaded. -/
inductive LoadFault
  | notFound
  | notModule
  | raised (fault : Fault)
  | noEntry
  | entryRaised (fault : Fault)
  | noRules
  /-- Something that is no rule, as it is written. -/
  | notRule (shown : String)
  /-- A fault that is raised where nothing is caught. -/
  | escaped (fault : Fault)

/-- Why the rules of plugins cannot be used. -/
inductive PluginFault
  | load (path : Path) (cause : LoadFault)
  /-- A rule that cannot tell its name. -/
  | nameless (origin : String) (fault : Fault)
  /-- The name of a rule that is registered already. -/
  | taken (name origin holder : String)
  | check (name origin : String) (fault : Fault)
  | stray (name origin : String) (value : Value)
  /-- A hint or a reason that cannot be told. -/
  | describe (name origin : String) (fault : Fault)
  /-- A fault that is raised where nothing is caught, by what a rule of a name answers. -/
  | escaped (name : String) (fault : Fault)

namespace LoadFault

/-- The message of a fault, if it is caught. -/
def message? : LoadFault → Option String
  | .notFound => some "file not found"
  | .notModule => some "not a Python module"
  | .raised fault => fault.message?
  | .noEntry => some "no get_plugin() found"
  | .entryRaised fault => fault.shown?.map ("get_plugin() raised " ++ ·)
  | .noRules => some "get_plugin() returned no rules"
  | .notRule shown => some (shown ++ " is not a rule")
  | .escaped _ => none

end LoadFault

namespace PluginFault

/-- The message of a fault, if it is caught. -/
def message? : PluginFault → Option String
  | .load path cause => cause.message?.map (s!"failed to load plugin '{path}': " ++ ·)
  | .nameless origin fault => fault.message?.map (s!"rule from {origin} failed in name(): " ++ ·)
  | .taken name origin holder =>
    some s!"rule '{name}' from {origin} is already registered by {holder}"
  | .check name origin fault =>
    fault.message?.map (s!"rule '{name}' from {origin} failed in check(): " ++ ·)
  | .stray name origin value =>
    some (s!"rule '{name}' from {origin} returned " ++ value.shown ++ ", expected a RuleResult")
  | .describe name origin fault =>
    fault.message?.map (s!"rule '{name}' from {origin} failed: " ++ ·)
  | .escaped _ _ => none

end PluginFault

namespace Contribution

/-- Whether something answers all questions that a rule is asked, if it lets one look. -/
def isRule : Contribution → Except Fault Bool
  | .rule _ complete => .ok complete
  | .hidden fault => .error fault
  | _ => .ok false

mutual

/-- A contribution as it is written. -/
def shown : Contribution → String
  | .rule .. => "<rule>"
  | .list items => "[" ++ ", ".intercalate (shownItems items) ++ "]"
  | .value v => v.shown
  | .unlistable shown _ => shown
  | .hidden _ => "<object>"

/-- The items of a list as they are written. -/
def shownItems : List Contribution → List String
  | [] => []
  | c :: cs => c.shown :: shownItems cs

end

/-- The fault of going through something that has no items. -/
def noItems : Fault where
  kind := "TypeError"
  arguments := [.text "object is not iterable"]

/-- What a contribution consists of, if it can be gone through: the items of a list, the characters
of a text, the names of a table. -/
def items : Contribution → Except Fault (List Contribution)
  | .list items => .ok items
  | .value (.text s) => .ok (s.toList.map fun c => .value (.text (String.singleton c)))
  | .value (.table entries) => .ok (entries.map fun e => .value (.text e.1))
  | .value (.list items) => .ok (items.map .value)
  | .unlistable _ fault => .error fault
  | _ => .error noItems

/-- The rules in a list. Everything in it has to be one. -/
def rulesIn : List Contribution → Except LoadFault (List Rule)
  | [] => .ok []
  | .rule r true :: cs =>
    match rulesIn cs with
    | .ok rs => .ok (r :: rs)
    | .error fault => .error fault
  | .hidden fault :: _ => .error (.escaped fault)
  | c :: _ => .error (.notRule c.shown)

/-- The rules that a contribution brings: itself, or what it consists of. Of the faults of going
through it only those of one kind are caught. -/
def rules : Contribution → Except LoadFault (List Rule)
  | .rule r true => .ok [r]
  | .hidden fault => .error (.escaped fault)
  | c =>
    match c.items with
    | .error fault => .error (if fault.kind = noItems.kind then .noRules else .escaped fault)
    | .ok items => rulesIn items

end Contribution

namespace PluginModule

/-- The rules of a module. -/
def rules : PluginModule → Except LoadFault (List Rule)
  | .unmade fault => .error (.escaped fault)
  | .broken fault => .error (.raised fault)
  | .noEntry => .error .noEntry
  | .hiddenEntry fault => .error (.escaped fault)
  | .entryRaises fault => .error (.entryRaised fault)
  | .returns c => c.rules

end PluginModule

namespace PluginModules

/-- The endings of names of files that hold modules: of source files, of translated ones and of
machine code. -/
def suffixes : List String :=
  [".py", ".pyc", ".so"]

/-- Whether a file can hold a module, by its name. -/
def isModuleName (name : String) : Bool :=
  suffixes.any fun suffix => suffix.toList.isSuffixOf name.toList

/-- The module of the file at a place. A file that is not among them has no entry point. -/
def moduleAt (modules : PluginModules) (place : List String) : PluginModule :=
  ((modules.modules.find? (·.1 = place)).map (·.2)).getD .noEntry

/-- The rules of the plugin at a path. -/
def load (modules : PluginModules) (fs : FileSystem) (path : Path) :
    Except LoadFault (List Rule) :=
  match fs.isFile path, fs.place path with
  | .error refusal, _ => .error (.escaped (.ofRefusal refusal path))
  | .ok true, .ok place =>
    if isModuleName path.name then (modules.moduleAt place).rules else .error .notModule
  | _, _ => .error .notFound

end PluginModules

end HdlLint
