import HdlLint.Config.File
import HdlLint.Proofs.Config.Settings
import HdlLint.Proofs.Toml.DistinctNames

/-!
# Documents that are configurations

A document is a configuration if the built-in rules that it mentions have truth values and its
patterns are regular expressions (`IsConfig`); it gives the settings of these rules and the patterns
(`Gives`). Reading goes through the settings of rules up to the first one that is out of place
(`ofEntries_of_rules`).

* `exists_outcome_eq_ok_iff`: which documents are read as configurations;
* `gives_of_outcome`: as which configurations they are read;
* `exists_outcome_ofText_iff`: which texts are read as configurations.
-/

namespace HdlLint

/-- The value at a path of names. -/
def Value.at? (v : Value) : List String → Option Value
  | [] => some v
  | name :: path => (v.table?.bind (lookupEntry name)).bind (·.at? path)

namespace Config

open Value (DistinctNames)

/-- What a document says at a path of names. -/
def said (entries : List (String × Value)) (path : List String) : Option Value :=
  (Value.table entries).at? path

/-- The settings of rules in a document. -/
def settings (entries : List (String × Value)) : List (String × Value) :=
  ((said entries ["rules"]).bind Value.table?).getD []

/-- Whether a table stands where anything does. -/
def TableIfAny (v? : Option Value) : Prop :=
  ∀ v, v? = some v → ∃ table, v = .table table

/-- Whether a document is a configuration. -/
structure IsConfig (entries : List (String × Value)) : Prop where
  rules : TableIfAny (said entries ["rules"])
  rule : ∀ name ∈ BuiltInRule.names, ∀ v, said entries ["rules", name] = some v → ∃ b, v = .bool b
  option : TableIfAny (said entries ["option"])
  patterns : ∀ v, said entries ["option", "exclude_paths"] = some v →
    ∃ patterns : List String, v = .list (patterns.map .text) ∧
      ∀ p ∈ patterns, Pattern.check p = .ok ()

/-- What a document says of the rules and the patterns of a configuration. -/
structure Gives (entries : List (String × Value)) (c : Config) : Prop where
  names : c.rules.names = BuiltInRule.names
  rule : ∀ name, c.isEnabled name = true ↔
    name ∈ BuiltInRule.names ∧ said entries ["rules", name] = some (.bool true)
  patterns : said entries ["option", "exclude_paths"] = some (.list (c.excludePaths.map .text)) ∨
    (said entries ["option", "exclude_paths"] = none ∧ c.excludePaths = [])

variable {entries : List (String × Value)}

theorem said_cons (entries : List (String × Value)) (name : String) (path : List String) :
    said entries (name :: path) = (lookupEntry name entries).bind (·.at? path) := rfl

theorem said_singleton (entries : List (String × Value)) (name : String) :
    said entries [name] = lookupEntry name entries :=
  Option.bind_fun_some _

theorem said_pair {name inner : String} {table : List (String × Value)}
    (h : said entries [name] = some (.table table)) :
    said entries [name, inner] = lookupEntry inner table := by
  rw [said_singleton] at h
  rw [said_cons, h]
  exact said_singleton table inner

theorem tableIfAny_some {v : Value} : TableIfAny (some v) ↔ ∃ table, v = .table table :=
  ⟨fun h => h v rfl, fun h _ hv => Option.some.inj hv ▸ h⟩

theorem exists_table_iff {v : Value} : (∃ table, v = .table table) ↔ v.table? ≠ none := by
  cases v <;> simp [Value.table?]

theorem settings_of_table {table : List (String × Value)}
    (h : said entries ["rules"] = some (.table table)) : settings entries = table := by
  rw [settings, h]
  rfl

/-! ## Reading a document -/

/-- Reading a document with a table of rules, or none. -/
theorem ofEntries_of_rules (h : TableIfAny (said entries ["rules"])) :
    ofEntries entries = ⟨unknownNames ((settings entries).takeWhile (!isMisfit ·)),
      (rulesOutcome (settings entries)).bind fun rules =>
        (readPatterns entries).map fun patterns => ⟨rules, patterns⟩⟩ := by
  have htable : ((lookupEntry "rules" entries).getD (.table [])).table? = some (settings entries) := by
    rw [settings, said_singleton] at *
    cases hv : lookupEntry "rules" entries with
    | none => rfl
    | some v =>
      obtain ⟨table, rfl⟩ := h v hv
      rfl
  rw [ofEntries, htable]
  dsimp only
  rw [readRules_default]
  cases rulesOutcome (settings entries) <;> rfl

theorem ofEntries_of_not_rules (h : ¬TableIfAny (said entries ["rules"])) :
    ofEntries entries = ⟨[], .error .rulesNotTable⟩ ∧ settings entries = [] := by
  rw [said_singleton] at h
  cases hv : lookupEntry "rules" entries with
  | none =>
    rw [hv] at h
    exact absurd (fun _ hv => nomatch hv) h
  | some v =>
    rw [hv, tableIfAny_some, exists_table_iff, Decidable.not_not] at h
    rw [ofEntries, settings, said_singleton, hv, Option.getD_some, Option.bind_some, h]
    exact ⟨rfl, rfl⟩

theorem unknown_ofEntries (entries : List (String × Value)) :
    (ofEntries entries).unknown = unknownNames ((settings entries).takeWhile (!isMisfit ·)) := by
  by_cases h : TableIfAny (said entries ["rules"])
  · rw [ofEntries_of_rules h]
  · obtain ⟨hread, hsettings⟩ := ofEntries_of_not_rules h
    rw [hread, hsettings]
    rfl

theorem checkPatterns_eq_ok_iff {patterns : List String} :
    checkPatterns patterns = .ok () ↔ ∀ p ∈ patterns, Pattern.check p = .ok () := by
  induction patterns with
  | nil => simp [checkPatterns]
  | cons p patterns ih =>
    rw [checkPatterns, List.forall_mem_cons, ← ih]
    cases Pattern.check p with
    | ok u => simp
    | error fault => simp

theorem texts?_map_text (patterns : List String) :
    texts? (.list (patterns.map .text)) = some patterns := by
  show (patterns.map Value.text).mapM Value.text? = some patterns
  induction patterns with
  | nil => rfl
  | cons p patterns ih =>
    rw [List.map_cons, List.mapM_cons, ih]
    rfl

theorem texts?_eq_some_iff {v : Value} {patterns : List String} :
    texts? v = some patterns ↔ v = .list (patterns.map .text) := by
  refine ⟨fun htexts => ?_, fun h => h ▸ texts?_map_text patterns⟩
  obtain ⟨items, hitems, h⟩ := Option.bind_eq_some_iff.mp htexts
  have hv : v = .list items := by
    cases v with
    | list items' => exact congrArg Value.list (Option.some.inj hitems)
    | _ => cases hitems
  rw [hv]
  refine congrArg Value.list ?_
  clear htexts hv hitems
  induction items generalizing patterns with
  | nil =>
    obtain rfl := Option.some.inj h
    rfl
  | cons item items ih =>
    rw [List.mapM_cons] at h
    obtain ⟨text, htext, h⟩ := Option.bind_eq_some_iff.mp h
    obtain ⟨texts, htexts, h⟩ := Option.bind_eq_some_iff.mp h
    obtain rfl := Option.some.inj h
    have hitem : item = .text text := by
      cases item with
      | text s => exact congrArg Value.text (Option.some.inj htext)
      | _ => cases htext
    rw [ih htexts, hitem, List.map_cons]

theorem texts_inj {patterns patterns' : List String}
    (h : some (Value.list (patterns.map .text)) = some (.list (patterns'.map .text))) :
    patterns = patterns' :=
  (List.map_inj_right fun _ _ => Value.text.inj).mp (Value.list.inj (Option.some.inj h))

/-- The patterns that are read are those that the options say. -/
theorem readPatterns_eq_ok_iff {patterns : List String} :
    readPatterns entries = .ok patterns ↔ TableIfAny (said entries ["option"]) ∧
      ((said entries ["option", "exclude_paths"] = none ∧ patterns = []) ∨
        (said entries ["option", "exclude_paths"] = some (.list (patterns.map .text)) ∧
          ∀ p ∈ patterns, Pattern.check p = .ok ())) := by
  rw [said_singleton, said_cons, readPatterns]
  cases hoption : lookupEntry "option" entries with
  | none => simp [TableIfAny, eq_comm]
  | some option =>
    rw [tableIfAny_some, exists_table_iff, Option.bind_some, Value.at?]
    dsimp only
    cases htable : option.table? with
    | none => simp
    | some options =>
      have hsaid : ((some options).bind (lookupEntry "exclude_paths")).bind (·.at? []) =
          lookupEntry "exclude_paths" options := Option.bind_fun_some _
      rw [hsaid, and_iff_right (Option.some_ne_none _)]
      dsimp only
      cases hv : lookupEntry "exclude_paths" options with
      | none => simp [eq_comm]
      | some v =>
        simp only [Option.some.injEq, reduceCtorEq, false_and, false_or, ← texts?_eq_some_iff]
        cases texts? v with
        | none => simp
        | some texts =>
          dsimp only
          rw [Option.some.injEq]
          cases hcheck : checkPatterns texts with
          | ok u =>
            dsimp only
            rw [Except.ok.injEq]
            exact ⟨fun h => ⟨h, h ▸ checkPatterns_eq_ok_iff.mp hcheck⟩, fun h => h.1⟩
          | error cause =>
            constructor
            · intro h
              cases h
            · rintro ⟨rfl, hall⟩
              rw [checkPatterns_eq_ok_iff.mpr hall] at hcheck
              cases hcheck

theorem check_of_readPatterns {patterns : List String} (h : readPatterns entries = .ok patterns) :
    ∀ p ∈ patterns, Pattern.check p = .ok () := by
  rcases (readPatterns_eq_ok_iff.mp h).2 with ⟨-, rfl⟩ | ⟨-, hall⟩
  · exact nofun
  · exact hall

theorem said_rule (h : TableIfAny (said entries ["rules"])) (name : String) :
    said entries ["rules", name] = lookupEntry name (settings entries) := by
  cases hv : said entries ["rules"] with
  | none =>
    rw [settings, hv, said_cons, ← said_singleton, hv]
    rfl
  | some v =>
    obtain ⟨table, rfl⟩ := h v hv
    rw [said_pair hv, settings_of_table hv]

theorem nodup_settings (h : DistinctNames (.table entries)) : ((settings entries).map Prod.fst).Nodup := by
  rw [settings, said_singleton]
  cases hv : (lookupEntry "rules" entries).bind Value.table? with
  | none => exact List.nodup_nil
  | some table =>
    obtain ⟨v, hlookup, htable⟩ := Option.bind_eq_some_iff.mp hv
    have hdistinct := h.of_lookup hlookup
    cases v with
    | table table' => exact Option.some.inj htable ▸ hdistinct.nodup
    | _ => cases htable

theorem outcome_eq_ok_iff {c : Config} :
    (ofEntries entries).outcome = .ok c ↔ TableIfAny (said entries ["rules"]) ∧
      rulesOutcome (settings entries) = .ok c.rules ∧ readPatterns entries = .ok c.excludePaths := by
  by_cases h : TableIfAny (said entries ["rules"])
  · rw [ofEntries_of_rules h, and_iff_right h]
    dsimp only
    cases rulesOutcome (settings entries) with
    | error cause => exact ⟨nofun, nofun⟩
    | ok rules =>
      rw [Except.bind]
      cases readPatterns entries with
      | error cause => exact ⟨nofun, nofun⟩
      | ok patterns =>
        constructor
        · intro hc
          cases hc
          exact ⟨rfl, rfl⟩
        · rintro ⟨hrules, hpatterns⟩
          rw [Except.ok.inj hrules, Except.ok.inj hpatterns]
          rfl
  · rw [(ofEntries_of_not_rules h).1]
    exact ⟨nofun, fun hc => absurd hc.1 h⟩

theorem exists_outcome_eq_ok_iff (h : DistinctNames (.table entries)) :
    (∃ c, (ofEntries entries).outcome = .ok c) ↔ IsConfig entries := by
  constructor
  · rintro ⟨c, hc⟩
    obtain ⟨hrules, hsettings, hpatterns⟩ := outcome_eq_ok_iff.mp hc
    have hnone := (rulesOutcome_eq_ok_iff.mp hsettings).1
    obtain ⟨hoption, hsaid⟩ := readPatterns_eq_ok_iff.mp hpatterns
    refine ⟨hrules, fun name hname v hv => ?_, hoption, fun v hv => ?_⟩
    · rw [said_rule hrules] at hv
      exact (find?_isMisfit_eq_none_iff (nodup_settings h)).mp hnone name hname v hv
    · rcases hsaid with ⟨hno, -⟩ | ⟨hyes, hall⟩
      · rw [hno] at hv
        cases hv
      · exact ⟨c.excludePaths, Option.some.inj (hv.symm.trans hyes), hall⟩
  · rintro ⟨hrules, hrule, hoption, hpatterns⟩
    have hnone : (settings entries).find? isMisfit = none := by
      refine (find?_isMisfit_eq_none_iff (nodup_settings h)).mpr fun name hname v hv => ?_
      exact hrule name hname v (said_rule hrules name ▸ hv)
    have hread : ∃ patterns, readPatterns entries = .ok patterns := by
      cases hv : said entries ["option", "exclude_paths"] with
      | none => exact ⟨[], readPatterns_eq_ok_iff.mpr ⟨hoption, .inl ⟨hv, rfl⟩⟩⟩
      | some v =>
        obtain ⟨patterns, rfl, hall⟩ := hpatterns v hv
        exact ⟨patterns, readPatterns_eq_ok_iff.mpr ⟨hoption, .inr ⟨hv, hall⟩⟩⟩
    obtain ⟨patterns, hpatterns⟩ := hread
    exact ⟨⟨taken (settings entries), patterns⟩, outcome_eq_ok_iff.mpr
      ⟨hrules, rulesOutcome_eq_ok_iff.mpr ⟨hnone, rfl⟩, hpatterns⟩⟩

theorem gives_of_outcome (h : DistinctNames (.table entries)) {c : Config}
    (hc : (ofEntries entries).outcome = .ok c) : Gives entries c := by
  obtain ⟨hrules, hsettings, hpatterns⟩ := outcome_eq_ok_iff.mp hc
  have htaken := (rulesOutcome_eq_ok_iff.mp hsettings).2
  refine ⟨htaken ▸ names_taken _, fun name => ?_, ?_⟩
  · rw [isEnabled, htaken, said_rule hrules]
    by_cases hname : name ∈ BuiltInRule.names
    · rw [get?_taken (nodup_settings h) hname, and_iff_right hname, Option.getD_some]
      cases hv : lookupEntry name (settings entries) with
      | none => simp
      | some v => cases v <;> simp [Value.bool?]
    · rw [OrderedTable.get?_eq_none_iff.mpr (names_taken (settings entries) ▸ hname)]
      exact ⟨fun hc => absurd hc Bool.false_ne_true, fun hc => absurd hc.1 hname⟩
  · rcases (readPatterns_eq_ok_iff.mp hpatterns).2 with hno | hyes
    · exact .inr hno
    · exact .inl hyes.1

/-- A text is read as a configuration exactly if it is a document that is one. -/
theorem exists_outcome_ofText_iff {text : String} :
    (∃ c, (ofText text).outcome = .ok c) ↔ ∃ entries, Toml.read text = .ok entries ∧ IsConfig entries := by
  rw [ofText]
  cases hread : Toml.read text with
  | error fault =>
    constructor
    · rintro ⟨c, hc⟩
      cases hc
    · rintro ⟨entries, hentries, -⟩
      cases hentries
  | ok entries =>
    dsimp only
    rw [exists_outcome_eq_ok_iff (Toml.distinctNames_of_read hread)]
    constructor
    · exact fun h => ⟨entries, rfl, h⟩
    · rintro ⟨entries', hentries, h⟩
      cases hentries
      exact h

end Config

end HdlLint
