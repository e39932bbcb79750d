import HdlLint.OrderedTable
import HdlLint.Rule.BuiltIn

/-!
# Configurations

A configuration says which rules are enabled and which source files are left out: those whose path
matches one of some patterns.
-/

namespace HdlLint

/-- Which rules are enabled, and the patterns of the paths that are left out. -/
structure Config where
  rules : OrderedTable Bool
  excludePaths : List String

namespace Config

/-- The configuration that enables no rule and leaves nothing out. -/
def default : Config :=
  ⟨OrderedTable.ofList (BuiltInRule.names.map (·, false)), []⟩

instance : Inhabited Config := ⟨default⟩

/-- The configuration with all its rules enabled. -/
def enableAll (c : Config) : Config :=
  { c with rules := c.rules.map fun _ => true }

/-- Whether a rule is enabled. Unknown rules are not. -/
def isEnabled (c : Config) (name : String) : Bool :=
  (c.rules.get? name).getD false

end Config

end HdlLint
