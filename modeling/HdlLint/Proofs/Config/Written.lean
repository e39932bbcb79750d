import HdlLint.Proofs.Config.Accepted
import HdlLint.Proofs.Toml.Document

/-!
# Configurations read as they were written

The document of a configuration has a table with its patterns and a table with its rules
(`read_toText`). Read back it gives the same patterns and the same settings, in the order of the
built-in rules (`ofText_toText`); so a configuration that was read from a document is read from its
own document once more (`ofText_toText_of_ofText`).
-/

namespace HdlLint.Config

open Toml

/-! ## The document -/

/-- The pairs of rules. -/
def rulePairs (rules : List (String × Bool)) : List (String × Value) :=
  rules.map fun r => (r.1, .bool r.2)

theorem names_rulePairs (rules : List (String × Bool)) :
    (rulePairs rules).map Prod.fst = rules.map Prod.fst := by
  rw [rulePairs, List.map_map]
  rfl

/-- Rules are added to those that were read before. -/
theorem reads_writeRule {es : Entries} (hes : "rules" ∉ es.map Prod.fst) (n : Nat)
    (done : List (String × Bool)) {rules : List (String × Bool)}
    (hnodup : ((done ++ rules).map Prod.fst).Nodup) :
    Reads ⟨es ++ [openTable "rules" (rulePairs done)], ["rules"], n⟩ (rules.flatMap writeRule)
      ⟨es ++ [openTable "rules" (rulePairs (done ++ rules))], ["rules"], n⟩ := by
  induction rules generalizing done with
  | nil => rw [List.append_nil]; exact .nil _
  | cons r rules ih =>
    have hname : r.1 ∉ (rulePairs done).map Prod.fst := by
      rw [names_rulePairs]
      rw [List.map_append, List.map_cons, List.nodup_append] at hnodup
      exact fun h => hnodup.2.2 _ h _ List.mem_cons_self rfl
    have hline : (r :: rules).flatMap writeRule =
        writeKey r.1 ++ " = ".toList ++ writeBool r.2 ++ '\n' :: rules.flatMap writeRule := by
      simp [writeRule]
    rw [List.append_cons] at hnodup
    have hrest := ih (done ++ [r]) hnodup
    rw [← List.append_cons] at hrest
    rw [hline]
    refine .pair hes hname (fun depth rest _ => element_writeBool depth r.2 _) ?_ ?_
    · cases r.2 <;> rfl
    · rw [rulePairs, List.map_append] at hrest
      exact hrest

/-- The entries of the document of a configuration. -/
def toEntries (c : Config) : List (String × Value) :=
  [("option", .table [("exclude_paths", .list (c.excludePaths.map .text))]),
    ("rules", .table (rulePairs c.rules.entries))]

/-- The characters of a document, line by line. -/
def documentLines (c : Config) : List Char :=
  '[' :: writeKey "option" ++ ']' :: '\n' :: (writeKey "exclude_paths" ++ " = ".toList ++
    writeTexts c.excludePaths ++ '\n' :: '\n' ::
      ('[' :: writeKey "rules" ++ ']' :: '\n' :: c.rules.entries.flatMap writeRule))

theorem toText_eq (c : Config) : c.toText = String.ofList c.documentLines := by
  have hoption : "[option]\nexclude_paths = ".toList =
      '[' :: writeKey "option" ++ ']' :: '\n' :: (writeKey "exclude_paths" ++ " = ".toList) := by
    decide +kernel
  have hrules : "\n\n[rules]\n".toList = '\n' :: '\n' :: ('[' :: writeKey "rules" ++ [']', '\n']) := by
    decide +kernel
  unfold toText
  rw [hoption, hrules, documentLines]
  simp only [List.append_assoc, List.cons_append, List.nil_append]

theorem not_mem_documentLines (c : Config) : '\r' ∉ c.documentLines := by
  have hrule : ∀ r, '\r' ∉ writeRule r := by
    intro r
    cases hr : r.2 <;> simp [writeRule, writeBool, not_mem_writeKey, hr]
  simp [documentLines, not_mem_writeKey, not_mem_writeTexts, hrule]

/-- A document is read as its two tables. -/
theorem reads_documentLines (c : Config) :
    Reads .empty c.documentLines
      ⟨[openTable "option" [("exclude_paths", .list (c.excludePaths.map .text))],
        openTable "rules" (rulePairs c.rules.entries)], ["rules"], 2⟩ := by
  have hpatterns : ∀ depth rest, (writeTexts c.excludePaths).length ≤ depth →
      element (depth + 1) (writeTexts c.excludePaths ++ '\n' :: rest) =
        .ok (.list (c.excludePaths.map .text), '\n' :: rest) := fun depth rest h =>
    element_writeTexts c.excludePaths (by have := length_lt_writeTexts c.excludePaths; omega) _
  have hblank : ∀ rest, (writeTexts c.excludePaths ++ rest).dropWhile isBlank =
      writeTexts c.excludePaths ++ rest := fun rest => by
    cases c.excludePaths <;> rfl
  have hnew : "rules" ∉ ([openTable "option" [("exclude_paths",
      .list (c.excludePaths.map .text))]] : Entries).map Prod.fst := by
    simp [openTable]
  exact .header List.not_mem_nil <| .pair List.not_mem_nil List.not_mem_nil hpatterns (hblank _) <|
    .newline <| .header hnew <| reads_writeRule hnew 2 [] c.rules.nodup

theorem read_toText (c : Config) : Toml.read c.toText = .ok c.toEntries := by
  rw [toText_eq, (reads_documentLines c).read (not_mem_documentLines c)]
  rw [← List.singleton_append, toEntries_append, toEntries_openTable, toEntries_openTable]
  rfl

/-! ## The configuration of the document -/

theorem readRules_rulePairs {settings : List (String × Bool)} {rules : OrderedTable Bool}
    (h : ∀ name ∈ settings.map Prod.fst, name ∈ rules.names) :
    readRules rules (rulePairs settings) = ([], .ok (rules.writeAll settings)) := by
  induction settings generalizing rules with
  | nil => rfl
  | cons r settings ih =>
    have hr : r.1 ∈ rules.names := h r.1 List.mem_cons_self
    have hrest : ∀ name ∈ settings.map Prod.fst, name ∈ (rules.insert r.1 r.2).names := fun name hn => by
      rw [OrderedTable.names_insert, if_pos hr]
      exact h name (List.mem_cons_of_mem _ hn)
    have hcons : rulePairs (r :: settings) = (r.1, .bool r.2) :: rulePairs settings := rfl
    rw [hcons, readRules, if_pos (OrderedTable.contains_iff.mpr hr)]
    exact ih hrest

theorem readPatterns_toEntries {c : Config} (h : ∀ p ∈ c.excludePaths, Pattern.check p = .ok ()) :
    readPatterns c.toEntries = .ok c.excludePaths := by
  exact readPatterns_eq_ok_iff.mpr ⟨tableIfAny_some.mpr ⟨_, rfl⟩, .inr ⟨rfl, h⟩⟩

/-- A document is read as the settings of its configuration, in the order of the built-in rules. -/
theorem ofText_toText {c : Config} (hnames : ∀ name ∈ c.rules.names, name ∈ BuiltInRule.names)
    (hpatterns : ∀ p ∈ c.excludePaths, Pattern.check p = .ok ()) :
    ofText c.toText = ⟨[], .ok ⟨default.rules.update c.rules, c.excludePaths⟩⟩ := by
  have hrules : readRules default.rules (rulePairs c.rules.entries) =
      ([], .ok (default.rules.update c.rules)) :=
    readRules_rulePairs fun name hn => names_default ▸ hnames name hn
  have htable : lookupEntry "rules" c.toEntries = some (.table (rulePairs c.rules.entries)) := rfl
  rw [ofText, read_toText]
  dsimp only
  rw [ofEntries, htable, Option.getD_some, Value.table?]
  dsimp only
  rw [hrules, readPatterns_toEntries hpatterns]
  rfl

/-- A configuration as a document gives it: a setting for each built-in rule, in order, and patterns
that are regular expressions. -/
structure Settled (c : Config) : Prop where
  names : c.rules.names = BuiltInRule.names
  patterns : ∀ p ∈ c.excludePaths, Pattern.check p = .ok ()

/-- Settings of all rules leave nothing of the default configuration. -/
theorem update_default {rules : OrderedTable Bool} (h : ∀ name, name ∈ rules.names ↔ name ∈ BuiltInRule.names) :
    (default.rules.update rules).names = BuiltInRule.names ∧
      ∀ name, (default.rules.update rules).get? name = rules.get? name := by
  rw [OrderedTable.update_eq_writeAll]
  constructor
  · rw [OrderedTable.names_writeAll fun name hn => names_default ▸ (h name).mp hn, names_default]
  · intro name
    have hlookup : lookupEntry name rules.entries = rules.get? name := rfl
    rw [OrderedTable.get?_writeAll rules.nodup, hlookup]
    cases hv : rules.get? name with
    | some b => rfl
    | none =>
      have hn := mt (h name).mpr (OrderedTable.get?_eq_none_iff.mp hv)
      rw [Option.none_or]
      exact OrderedTable.get?_eq_none_iff.mpr (names_default ▸ hn)

theorem Settled.ofText_toText {c : Config} (h : c.Settled) : ofText c.toText = ⟨[], .ok c⟩ := by
  obtain ⟨hnames, hget⟩ := update_default fun name => by rw [h.names]
  rw [Config.ofText_toText (fun name hn => h.names ▸ hn) h.patterns,
    OrderedTable.eq_of_names_of_get? (hnames.trans h.names.symm) hget]

/-- What is read from a document has a setting for each built-in rule. -/
theorem settled_of_ofText {text : String} {unknown : List String} {c : Config}
    (h : ofText text = ⟨unknown, .ok c⟩) : c.Settled := by
  rw [ofText] at h
  split at h
  · obtain ⟨-, hrules, hpatterns⟩ := outcome_eq_ok_iff.mp (congrArg Reading.outcome h)
    exact ⟨(rulesOutcome_eq_ok_iff.mp hrules).2 ▸ names_taken _, check_of_readPatterns hpatterns⟩
  · cases h

end HdlLint.Config
