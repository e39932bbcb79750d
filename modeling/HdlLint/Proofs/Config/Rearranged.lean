import HdlLint.Proofs.Config.Accepted
import Mathlib.Data.List.TakeWhile

/-!
# Documents with the same configuration

Whether a document is a configuration, and which, depends on what it says at a few paths only
(`Agree`), so neither the order of entries nor the entries that are not asked for make a difference
(`Rearranged`). All that unknown rules do is to give a warning each.

* `ofEntries_settings`: what documents are read as.
-/

namespace HdlLint.Config

open Value (DistinctNames)

/-- Whether documents say the same of all that makes up a configuration. -/
structure Agree (entries entries' : List (String × Value)) : Prop where
  rules : TableIfAny (said entries' ["rules"]) ↔ TableIfAny (said entries ["rules"])
  rule : ∀ name ∈ BuiltInRule.names, said entries' ["rules", name] = said entries ["rules", name]
  option : TableIfAny (said entries' ["option"]) ↔ TableIfAny (said entries ["option"])
  patterns : said entries' ["option", "exclude_paths"] = said entries ["option", "exclude_paths"]

/-- Documents that differ in the order of entries, or in entries that no configuration asks for: of
the whole document, of its table of rules or of its table of options. -/
inductive Rearranged : List (String × Value) → List (String × Value) → Prop
  | document {entries entries' : List (String × Value)}
      (h : SameUnder ["rules", "option"] entries entries') : Rearranged entries entries'
  | rules {before after settings settings' : List (String × Value)}
      (h : SameUnder BuiltInRule.names settings settings') :
      Rearranged (before ++ ("rules", .table settings) :: after)
        (before ++ ("rules", .table settings') :: after)
  | options {before after options options' : List (String × Value)}
      (h : SameUnder ["exclude_paths"] options options') :
      Rearranged (before ++ ("option", .table options) :: after)
        (before ++ ("option", .table options') :: after)

variable {entries entries' : List (String × Value)} {c d : Config}

theorem Agree.isConfig (h : Agree entries entries') : IsConfig entries' ↔ IsConfig entries := by
  constructor
  · rintro ⟨hrules, hrule, hoption, hpatterns⟩
    exact ⟨h.rules.mp hrules, fun name hname => h.rule name hname ▸ hrule name hname,
      h.option.mp hoption, h.patterns ▸ hpatterns⟩
  · rintro ⟨hrules, hrule, hoption, hpatterns⟩
    exact ⟨h.rules.mpr hrules, fun name hname => h.rule name hname ▸ hrule name hname,
      h.option.mpr hoption, h.patterns ▸ hpatterns⟩

theorem Agree.gives (h : Agree entries entries') (hc : Gives entries' c) : Gives entries c := by
  refine ⟨hc.names, fun name => ?_, h.patterns ▸ hc.patterns⟩
  rw [hc.rule name]
  exact and_congr_right fun hname => by rw [h.rule name hname]

/-- A document gives one configuration at most. -/
theorem Gives.unique (hc : Gives entries c) (hd : Gives entries d) : c = d := by
  have hrules : c.rules = d.rules := by
    refine OrderedTable.eq_of_names_of_get? (hc.names.trans hd.names.symm) fun name => ?_
    by_cases hname : name ∈ BuiltInRule.names
    · have henabled : c.isEnabled name = d.isEnabled name :=
        Bool.eq_iff_iff.mpr ((hc.rule name).trans (hd.rule name).symm)
      rw [isEnabled, isEnabled] at henabled
      obtain ⟨b, hb⟩ := Option.ne_none_iff_exists'.mp
        (mt OrderedTable.get?_eq_none_iff.mp (not_not_intro (hc.names ▸ hname)))
      obtain ⟨b', hb'⟩ := Option.ne_none_iff_exists'.mp
        (mt OrderedTable.get?_eq_none_iff.mp (not_not_intro (hd.names ▸ hname)))
      rw [hb, hb', Option.getD_some, Option.getD_some] at henabled
      rw [hb, hb', henabled]
    · rw [OrderedTable.get?_eq_none_iff.mpr (hc.names ▸ hname),
        OrderedTable.get?_eq_none_iff.mpr (hd.names ▸ hname)]
  have hpatterns : c.excludePaths = d.excludePaths := by
    rcases hc.patterns with hc | ⟨hc, hnil⟩
    · rcases hd.patterns with hd | ⟨hd, -⟩
      · exact texts_inj (hc.symm.trans hd)
      · cases hc.symm.trans hd
    · rcases hd.patterns with hd | ⟨-, hnil'⟩
      · cases hc.symm.trans hd
      · rw [hnil, hnil']
  cases c
  cases d
  rw [mk.injEq]
  exact ⟨hrules, hpatterns⟩

theorem Agree.toOption_outcome (h : Agree entries entries') (hentries : DistinctNames (.table entries))
    (hentries' : DistinctNames (.table entries')) :
    (ofEntries entries').outcome.toOption = (ofEntries entries).outcome.toOption := by
  cases hc' : (ofEntries entries').outcome with
  | ok c' =>
    obtain ⟨c, hc⟩ := (exists_outcome_eq_ok_iff hentries).mpr
      (h.isConfig.mp ((exists_outcome_eq_ok_iff hentries').mp ⟨c', hc'⟩))
    have hgives := h.gives (gives_of_outcome hentries' hc')
    rw [hc, hgives.unique (gives_of_outcome hentries hc)]
  | error cause' =>
    cases hc : (ofEntries entries).outcome with
    | error cause => rfl
    | ok c =>
      obtain ⟨c', hok⟩ := (exists_outcome_eq_ok_iff hentries').mpr
        (h.isConfig.mpr ((exists_outcome_eq_ok_iff hentries).mp ⟨c, hc⟩))
      rw [hc'] at hok
      cases hok

variable {before after table table' : List (String × Value)} {key name : String}

theorem said_of_ne (h : key ≠ name) (v : Value) (path : List String) :
    said (before ++ (key, v) :: after) (name :: path) = said (before ++ after) (name :: path) := by
  rw [said_cons, said_cons, lookupEntry_append_cons_of_ne h]

theorem said_table (h : DistinctNames (.table (before ++ (key, .table table) :: after))) :
    said (before ++ (key, .table table) :: after) [key] = some (.table table) := by
  rw [said_singleton, lookupEntry_eq_some_iff h.nodup]
  exact List.mem_append_right before List.mem_cons_self

theorem tableIfAny_said (h : DistinctNames (.table (before ++ (key, .table table) :: after))) :
    TableIfAny (said (before ++ (key, .table table) :: after) [key]) := by
  rw [said_table h, tableIfAny_some]
  exact ⟨table, rfl⟩

/-- Inside a table only the entries that are asked for make a difference. -/
theorem said_of_sameUnder {names : List String} (hsame : SameUnder names table table')
    (h : DistinctNames (.table (before ++ (key, .table table) :: after)))
    (h' : DistinctNames (.table (before ++ (key, .table table') :: after))) (hname : name ∈ names) :
    said (before ++ (key, .table table') :: after) [key, name] =
      said (before ++ (key, .table table) :: after) [key, name] := by
  have htable : DistinctNames (.table table) := h.of_lookup (said_singleton _ key ▸ said_table h)
  rw [said_pair (said_table h), said_pair (said_table h'), hsame.lookupEntry_eq htable.nodup hname]

theorem Rearranged.agree (h : Rearranged entries entries') (hentries : DistinctNames (.table entries))
    (hentries' : DistinctNames (.table entries')) : Agree entries entries' := by
  cases h with
  | document h =>
    have hsaid : ∀ name ∈ ["rules", "option"], ∀ path,
        said entries' (name :: path) = said entries (name :: path) := fun name hname path => by
      rw [said_cons, said_cons, h.lookupEntry_eq hentries.nodup hname]
    have hrules := hsaid "rules" (by decide)
    have hoption := hsaid "option" (by decide)
    exact ⟨by rw [hrules], fun name _ => hrules [name], by rw [hoption], hoption ["exclude_paths"]⟩
  | rules h =>
    refine ⟨iff_of_true (tableIfAny_said hentries') (tableIfAny_said hentries),
      fun name hname => said_of_sameUnder h hentries hentries' hname, ?_, ?_⟩
    · rw [said_of_ne (by decide), said_of_ne (by decide)]
    · rw [said_of_ne (by decide), said_of_ne (by decide)]
  | options h =>
    refine ⟨?_, fun name hname => ?_, iff_of_true (tableIfAny_said hentries') (tableIfAny_said hentries),
      said_of_sameUnder h hentries hentries' (by decide)⟩
    · rw [said_of_ne (by decide), said_of_ne (by decide)]
    · rw [said_of_ne (by decide), said_of_ne (by decide)]

/-- Settings of unknown rules make no difference, not even to what is wrong with a document. -/
theorem outcome_of_filter {settings settings' : List (String × Value)}
    (h : DistinctNames (.table (before ++ ("rules", .table settings) :: after)))
    (h' : DistinctNames (.table (before ++ ("rules", .table settings') :: after)))
    (hfilter : settings'.filter isKnown = settings.filter isKnown) :
    (ofEntries (before ++ ("rules", .table settings') :: after)).outcome =
      (ofEntries (before ++ ("rules", .table settings) :: after)).outcome := by
  have hpatterns : readPatterns (before ++ ("rules", .table settings') :: after) =
      readPatterns (before ++ ("rules", .table settings) :: after) := by
    rw [readPatterns, readPatterns, lookupEntry_append_cons_of_ne (by decide),
      lookupEntry_append_cons_of_ne (by decide)]
  rw [ofEntries_of_rules (tableIfAny_said h), ofEntries_of_rules (tableIfAny_said h'),
    settings_of_table (said_table h), settings_of_table (said_table h'), hpatterns,
    ← rulesOutcome_filter settings', hfilter, rulesOutcome_filter]

theorem nodup_unknownNames (h : DistinctNames (.table entries)) :
    (unknownNames (settings entries)).Nodup :=
  (nodup_settings h).sublist (List.filter_sublist.map Prod.fst)

theorem unknown_of_isConfig (h : DistinctNames (.table entries)) (hconfig : IsConfig entries) :
    (ofEntries entries).unknown = unknownNames (settings entries) := by
  have hnone : ∀ setting ∈ settings entries, ¬isMisfit setting = true := by
    rw [← List.find?_eq_none, find?_isMisfit_eq_none_iff (nodup_settings h)]
    exact fun name hname v hv => hconfig.rule name hname v (said_rule hconfig.rules name ▸ hv)
  rw [unknown_ofEntries, List.takeWhile_eq_self_iff.mpr]
  intro setting hsetting
  rw [Bool.not_eq_true', Bool.eq_false_iff]
  exact hnone setting hsetting

/-- A document is read as a configuration exactly where it is one, with a truth value for each
built-in rule and the patterns that it gives. Each unknown rule gives one warning, in order, up to
the first built-in rule without a truth value, and makes no other difference. Neither do other
orders of entries or entries that are not asked for make one to the configuration. -/
theorem ofEntries_settings (hentries : DistinctNames (.table entries)) :
    ((∃ c, (ofEntries entries).outcome = .ok c) ↔ IsConfig entries) ∧
    (∀ c, (ofEntries entries).outcome = .ok c → Gives entries c) ∧
    (∀ origin, (ofEntries entries).warnings origin = String.join
      ((unknownNames ((settings entries).takeWhile (!isMisfit ·))).map fun name =>
        s!"[svlint] Unknown rule '{name}' in '{origin}' is ignored.\n")) ∧
    (unknownNames (settings entries)).Nodup ∧
    (IsConfig entries → (ofEntries entries).unknown = unknownNames (settings entries)) ∧
    (∀ before after settings settings', entries = before ++ ("rules", .table settings) :: after →
      DistinctNames (.table (before ++ ("rules", .table settings') :: after)) →
      settings'.filter isKnown = settings.filter isKnown →
      (ofEntries (before ++ ("rules", .table settings') :: after)).outcome =
        (ofEntries entries).outcome) ∧
    ∀ entries', DistinctNames (.table entries') → Rearranged entries entries' →
      (ofEntries entries').outcome.toOption = (ofEntries entries).outcome.toOption := by
  refine ⟨exists_outcome_eq_ok_iff hentries, fun c => gives_of_outcome hentries, fun origin => ?_,
    nodup_unknownNames hentries, unknown_of_isConfig hentries, ?_, ?_⟩
  · rw [Reading.warnings, unknown_ofEntries]
    rfl
  · rintro before after settings settings' rfl hentries' hfilter
    exact outcome_of_filter hentries hentries' hfilter
  · intro entries' hentries' h
    exact (h.agree hentries hentries').toOption_outcome hentries hentries'

/-- Settings of an unknown rule and of a built-in one. -/
def sampleRules : Value :=
  .table [("no_such_rule", .int 1), ("generate_keyword", .bool true)]

/-- Options with a pattern. -/
def sampleOptions : Value :=
  .table [("exclude_paths", .list [.text "a+"])]

theorem distinctNames_sampleRules : sampleRules.DistinctNames :=
  .table (by decide)
    (List.forall_mem_cons.mpr ⟨.atom rfl rfl, List.forall_mem_singleton.mpr (.atom rfl rfl)⟩)

theorem distinctNames_sampleOptions : sampleOptions.DistinctNames :=
  .table (by decide)
    (List.forall_mem_singleton.mpr (.list (List.forall_mem_singleton.mpr (.atom rfl rfl))))

/-- A document of these settings and options. -/
def sampleEntries : List (String × Value) :=
  [("rules", sampleRules), ("option", sampleOptions)]

/-- The same the other way round, below a title. -/
def sampleReversed : List (String × Value) :=
  [("title", .text "svlint"), ("option", sampleOptions), ("rules", sampleRules)]

theorem isConfig_sampleEntries : IsConfig sampleEntries where
  rules := tableIfAny_some.mpr ⟨_, rfl⟩
  rule name hname v hv := by
    have hsaid : said sampleEntries ["rules", name] =
        lookupEntry name [("no_such_rule", .int 1), ("generate_keyword", .bool true)] := said_pair rfl
    rw [hsaid] at hv
    rcases List.mem_cons.mp (mem_of_lookupEntry hv) with h | h
    · cases h
      exact absurd hname (by decide +kernel)
    · cases List.mem_singleton.mp h
      exact ⟨true, rfl⟩
  option := tableIfAny_some.mpr ⟨_, rfl⟩
  patterns v hv := by
    cases hv
    exact ⟨["a+"], rfl, List.forall_mem_singleton.mpr rfl⟩

/-- Both documents give the same configuration. -/
theorem ofEntries_settings_sample :
    DistinctNames (.table sampleEntries) ∧ DistinctNames (.table sampleReversed) ∧
    (ofEntries sampleEntries).warnings "a.toml" =
      "[svlint] Unknown rule 'no_such_rule' in 'a.toml' is ignored.\n" ∧
    ∃ c, (ofEntries sampleEntries).outcome = .ok c ∧ (ofEntries sampleReversed).outcome = .ok c ∧
      c.isEnabled "generate_keyword" = true ∧ c.excludePaths = ["a+"] := by
  have hentries : DistinctNames (.table sampleEntries) :=
    .table (by decide) (List.forall_mem_cons.mpr
      ⟨distinctNames_sampleRules, List.forall_mem_singleton.mpr distinctNames_sampleOptions⟩)
  have hreversed : DistinctNames (.table sampleReversed) :=
    .table (by decide) (List.forall_mem_cons.mpr ⟨.atom rfl rfl, List.forall_mem_cons.mpr
      ⟨distinctNames_sampleOptions, List.forall_mem_singleton.mpr distinctNames_sampleRules⟩⟩)
  have hrearranged : Rearranged sampleEntries sampleReversed := by
    have hswap : SameUnder ["rules", "option"] sampleEntries sampleEntries.reverse :=
      sameUnder_of_perm (List.reverse_perm _).symm
    exact .document (hswap.trans
      (sameUnder_cons (by decide : "title" ∉ ["rules", "option"]) (.text "svlint") [] _))
  obtain ⟨hread, hgives, hwarnings, -, -, -, hsame⟩ := ofEntries_settings hentries
  obtain ⟨c, hc⟩ := hread.mpr isConfig_sampleEntries
  have hoption := hsame sampleReversed hreversed hrearranged
  refine ⟨hentries, hreversed, ?_, c, hc, ?_, ?_, ?_⟩
  · rw [hwarnings]
    decide +kernel
  · rw [hc] at hoption
    cases hc' : (ofEntries sampleReversed).outcome with
    | ok c' =>
      rw [hc'] at hoption
      rw [Option.some.inj hoption]
    | error cause =>
      rw [hc'] at hoption
      cases hoption
  · exact ((hgives c hc).rule "generate_keyword").mpr ⟨by decide +kernel, rfl⟩
  · rcases (hgives c hc).patterns with h | ⟨h, -⟩
    · have hsaid : said sampleEntries ["option", "exclude_paths"] =
          some (.list (["a+"].map .text)) := rfl
      exact (texts_inj (hsaid.symm.trans h)).symm
    · cases h

end HdlLint.Config
