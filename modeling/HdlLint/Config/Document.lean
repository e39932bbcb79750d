import HdlLint.Config.Basic
import HdlLint.Pattern
import HdlLint.Toml.Document

/-!
# Configurations as documents

A configuration is written as a TOML document with a table of options and a table of rules
(`Config.write`). Reading one starts from the default configuration and takes over what the tables
say. A rule that is not known is left out with a warning, whatever stands behind its name; anything
else that is out of place makes the document no configuration (`Config.Cause`).

* `Config.ofEntries`: the configuration of the entries of a document;
* `Config.ofText`: the configuration of a document.
-/

namespace HdlLint.Config

/-- Why a document is no configuration. -/
inductive Cause
  /-- The text is no document. -/
  | document (fault : Toml.Fault)
  | rulesNotTable
  | ruleNotBool (name : String)
  | optionNotTable
  | excludesNotTexts
  /-- A text that is no regular expression. -/
  | badPattern (pattern : String) (fault : Pattern.Fault)
deriving DecidableEq, Repr

/-- What reading a configuration gives: the names of unknown rules that were met, and the
configuration. -/
structure Reading where
  unknown : List String
  outcome : Except Cause Config

namespace Cause

/-- The message of a cause. -/
def message : Cause → String
  | .document _ => "<toml error>"
  | .rulesNotTable => "[rules] must be a table"
  | .ruleNotBool name => s!"rule '{name}' must be true or false"
  | .optionNotTable => "[option] must be a table"
  | .excludesNotTexts => "option.exclude_paths must be a list of strings"
  | .badPattern pattern _ =>
    "bad exclude_paths pattern " ++ Text.quote pattern ++ " (<regex error>)"

end Cause

/-! ## Reading -/

/-- Takes over the settings of rules, in order, up to one that is no truth value. -/
def readRules (rules : OrderedTable Bool) :
    List (String × Value) → List String × Except Cause (OrderedTable Bool)
  | [] => ([], .ok rules)
  | (name, v) :: rest =>
    if rules.contains name then
      match v.bool? with
      | some enabled => readRules (rules.insert name enabled) rest
      | none => ([], .error (.ruleNotBool name))
    else
      let (unknown, outcome) := readRules rules rest
      (name :: unknown, outcome)

/-- The texts of a list of texts. -/
def texts? (v : Value) : Option (List String) := do
  (← v.list?).mapM Value.text?

/-- Checks that texts are regular expressions. -/
def checkPatterns : List String → Except Cause Unit
  | [] => .ok ()
  | pattern :: rest =>
    match Pattern.check pattern with
    | .ok () => checkPatterns rest
    | .error fault => .error (.badPattern pattern fault)

/-- The patterns that the options of a document give. -/
def readPatterns (entries : List (String × Value)) : Except Cause (List String) :=
  match lookupEntry "option" entries with
  | none => .ok []
  | some option =>
    match option.table? with
    | none => .error .optionNotTable
    | some options =>
      match lookupEntry "exclude_paths" options with
      | none => .ok []
      | some v =>
        match texts? v with
        | none => .error .excludesNotTexts
        | some patterns =>
          match checkPatterns patterns with
          | .ok () => .ok patterns
          | .error cause => .error cause

/-- The configuration of the entries of a document. -/
def ofEntries (entries : List (String × Value)) : Reading :=
  match ((lookupEntry "rules" entries).getD (.table [])).table? with
  | none => ⟨[], .error .rulesNotTable⟩
  | some settings =>
    match readRules default.rules settings with
    | (unknown, .error cause) => ⟨unknown, .error cause⟩
    | (unknown, .ok rules) =>
      ⟨unknown, (readPatterns entries).map fun patterns => ⟨rules, patterns⟩⟩

/-- The configuration of a document. -/
def ofText (text : String) : Reading :=
  match Toml.read text with
  | .ok entries => ofEntries entries
  | .error fault => ⟨[], .error (.document fault)⟩

/-! ## Writing -/

/-- The line of a rule. -/
def writeRule (rule : String × Bool) : List Char :=
  Toml.writeKey rule.1 ++ " = ".toList ++ Toml.writeBool rule.2 ++ ['\n']

/-- The document of a configuration. -/
def toText (c : Config) : String :=
  String.ofList ("[option]\nexclude_paths = ".toList ++ Toml.writeTexts c.excludePaths ++
    "\n\n[rules]\n".toList ++ c.rules.entries.flatMap writeRule)

end HdlLint.Config
