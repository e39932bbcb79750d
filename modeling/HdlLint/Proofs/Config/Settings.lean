import HdlLint.Config.Document
import HdlLint.Proofs.OrderedTable.Update

/-!
# Settings of rules

The settings of rules in a document are read up to the first misfit, a built-in rule that has no
truth value (`readRules_eq`). Those of unknown rules make no difference to what the others give
(`rulesOutcome_filter`).
-/

namespace HdlLint.Config

/-- Whether a setting is one of a built-in rule. -/
def isKnown (setting : String × Value) : Bool :=
  BuiltInRule.names.contains setting.1

/-- Whether a setting gives a built-in rule something else than a truth value. -/
def isMisfit (setting : String × Value) : Bool :=
  isKnown setting && setting.2.bool?.isNone

/-- The names of the unknown rules among some settings. -/
def unknownNames (settings : List (String × Value)) : List String :=
  (settings.filter (!isKnown ·)).map Prod.fst

/-- The setting that is taken over. -/
def setting? (setting : String × Value) : Option (String × Bool) :=
  if isKnown setting then setting.2.bool?.map (setting.1, ·) else none

/-- Settings are read up to the first misfit; the others of built-in rules are written in order. -/
theorem readRules_eq {rules : OrderedTable Bool} (h : rules.names = BuiltInRule.names)
    (settings : List (String × Value)) :
    readRules rules settings =
      (unknownNames (settings.takeWhile (!isMisfit ·)),
        match settings.find? isMisfit with
        | some misfit => .error (.ruleNotBool misfit.1)
        | none => .ok (rules.writeAll (settings.filterMap setting?))) := by
  induction settings generalizing rules with
  | nil => rfl
  | cons setting settings ih =>
    obtain ⟨name, v⟩ := setting
    have hknown : isKnown (name, v) = rules.contains name := by
      rw [Bool.eq_iff_iff, OrderedTable.contains_iff, h, isKnown, List.contains_iff_mem]
    rw [readRules]
    cases hc : rules.contains name with
    | false =>
      have hmisfit : isMisfit (name, v) = false := by rw [isMisfit, hknown, hc, Bool.false_and]
      have hnone : setting? (name, v) = none := by rw [setting?, hknown, hc, if_neg Bool.false_ne_true]
      rw [if_neg Bool.false_ne_true, ih h, List.takeWhile_cons_of_pos (by rw [hmisfit]; rfl),
        List.find?_cons_of_neg (by rw [hmisfit]; exact Bool.false_ne_true),
        List.filterMap_cons_none hnone, unknownNames, unknownNames,
        List.filter_cons_of_pos (by rw [hknown, hc]; rfl), List.map_cons]
    | true =>
      rw [if_pos rfl]
      cases hv : v.bool? with
      | none =>
        have hmisfit : isMisfit (name, v) = true := by rw [isMisfit, hknown, hc, hv]; rfl
        rw [List.takeWhile_cons_of_neg (by rw [hmisfit]; exact Bool.false_ne_true),
          List.find?_cons_of_pos hmisfit]
        rfl
      | some b =>
        have hmisfit : isMisfit (name, v) = false := by rw [isMisfit, hknown, hc, hv]; rfl
        have hsome : setting? (name, v) = some (name, b) := by
          rw [setting?, hknown, hc, if_pos rfl, hv, Option.map_some]
        have hnames : (rules.insert name b).names = BuiltInRule.names := by
          rw [OrderedTable.names_insert, if_pos (OrderedTable.contains_iff.mp hc), h]
        dsimp only
        rw [ih hnames, List.takeWhile_cons_of_pos (by rw [hmisfit]; rfl),
          List.find?_cons_of_neg (by rw [hmisfit]; exact Bool.false_ne_true),
          List.filterMap_cons_some hsome, OrderedTable.writeAll_cons, unknownNames, unknownNames,
          List.filter_cons_of_neg (by rw [hknown, hc]; exact Bool.false_ne_true)]

theorem isKnown_iff {setting : String × Value} :
    isKnown setting = true ↔ setting.1 ∈ BuiltInRule.names :=
  List.contains_iff_mem

theorem isMisfit_iff {setting : String × Value} :
    isMisfit setting = true ↔ setting.1 ∈ BuiltInRule.names ∧ ¬∃ b, setting.2 = .bool b := by
  rw [isMisfit, Bool.and_eq_true, isKnown_iff]
  cases setting.2 <;> simp [Value.bool?]

theorem names_default : default.rules.names = BuiltInRule.names := by
  decide +kernel

/-- The rules of the default configuration behind some settings. -/
def taken (settings : List (String × Value)) : OrderedTable Bool :=
  default.rules.writeAll (settings.filterMap setting?)

/-- The rules that settings give, or what is wrong with the first misfit. -/
def rulesOutcome (settings : List (String × Value)) : Except Cause (OrderedTable Bool) :=
  match settings.find? isMisfit with
  | some misfit => .error (.ruleNotBool misfit.1)
  | none => .ok (taken settings)

theorem readRules_default (settings : List (String × Value)) :
    readRules default.rules settings =
      (unknownNames (settings.takeWhile (!isMisfit ·)), rulesOutcome settings) :=
  readRules_eq names_default settings

theorem rulesOutcome_eq_ok_iff {settings : List (String × Value)} {rules : OrderedTable Bool} :
    rulesOutcome settings = .ok rules ↔ settings.find? isMisfit = none ∧ rules = taken settings := by
  rw [rulesOutcome]
  cases settings.find? isMisfit with
  | none => simp [eq_comm]
  | some misfit => simp

/-- There is no misfit where every built-in rule that has a setting has a truth value. -/
theorem find?_isMisfit_eq_none_iff {settings : List (String × Value)}
    (hnodup : (settings.map Prod.fst).Nodup) :
    settings.find? isMisfit = none ↔
      ∀ name ∈ BuiltInRule.names, ∀ v, lookupEntry name settings = some v → ∃ b, v = .bool b := by
  rw [List.find?_eq_none]
  constructor
  · intro h name hname v hv
    have hfits := h _ (mem_of_lookupEntry hv)
    rw [isMisfit_iff, not_and, Classical.not_not] at hfits
    exact hfits hname
  · intro h setting hsetting hmisfit
    obtain ⟨hname, hother⟩ := isMisfit_iff.mp hmisfit
    exact hother (h setting.1 hname setting.2 ((lookupEntry_eq_some_iff hnodup).mpr hsetting))

theorem eq_of_setting? {setting : String × Value} {rule : String × Bool}
    (h : setting? setting = some rule) :
    rule.1 = setting.1 ∧ isKnown setting = true ∧ setting.2.bool? = some rule.2 := by
  rw [setting?] at h
  split at h
  · next hknown =>
    obtain ⟨b, hb, rfl⟩ := Option.map_eq_some_iff.mp h
    exact ⟨rfl, hknown, hb⟩
  · cases h

theorem map_fst_setting?_sublist (settings : List (String × Value)) :
    ((settings.filterMap setting?).map Prod.fst).Sublist (settings.map Prod.fst) := by
  induction settings with
  | nil => exact .slnil
  | cons setting settings ih =>
    cases h : setting? setting with
    | none =>
      rw [List.filterMap_cons_none h]
      exact ih.cons _
    | some rule =>
      rw [List.filterMap_cons_some h, List.map_cons, List.map_cons, (eq_of_setting? h).1]
      exact ih.cons_cons _

theorem lookupEntry_filterMap_setting? {settings : List (String × Value)} {name : String}
    (hnodup : (settings.map Prod.fst).Nodup) (hname : name ∈ BuiltInRule.names) :
    lookupEntry name (settings.filterMap setting?) = (lookupEntry name settings).bind Value.bool? := by
  induction settings with
  | nil => rfl
  | cons setting settings ih =>
    rw [List.map_cons, List.nodup_cons] at hnodup
    have hrest := ih hnodup.2
    rw [lookupEntry]
    by_cases he : setting.1 = name
    · have hknown : isKnown setting = true := isKnown_iff.mpr (he ▸ hname)
      have hsetting : setting? setting = setting.2.bool?.map (setting.1, ·) := if_pos hknown
      rw [if_pos he, Option.bind_some]
      cases hb : setting.2.bool? with
      | none =>
        rw [hb] at hsetting
        rw [List.filterMap_cons_none hsetting, hrest, lookupEntry_eq_none_iff.mpr (he ▸ hnodup.1),
          Option.bind_none]
      | some b =>
        rw [hb] at hsetting
        rw [List.filterMap_cons_some hsetting, lookupEntry, if_pos he]
    · rw [if_neg he, ← hrest]
      cases h : setting? setting with
      | none => rw [List.filterMap_cons_none h]
      | some rule =>
        rw [List.filterMap_cons_some h, lookupEntry, if_neg ((eq_of_setting? h).1 ▸ he)]

theorem names_taken (settings : List (String × Value)) :
    (taken settings).names = BuiltInRule.names := by
  rw [taken, OrderedTable.names_writeAll fun name hname => ?_, names_default]
  obtain ⟨rule, hrule, rfl⟩ := List.mem_map.mp hname
  obtain ⟨setting, -, hsetting⟩ := List.mem_filterMap.mp hrule
  obtain ⟨hfst, hknown, -⟩ := eq_of_setting? hsetting
  rw [names_default, hfst]
  exact isKnown_iff.mp hknown

theorem get?_default : ∀ name ∈ BuiltInRule.names, default.rules.get? name = some false := by
  decide +kernel

theorem get?_taken {settings : List (String × Value)} {name : String}
    (hnodup : (settings.map Prod.fst).Nodup) (hname : name ∈ BuiltInRule.names) :
    (taken settings).get? name = some (((lookupEntry name settings).bind Value.bool?).getD false) := by
  rw [taken, OrderedTable.get?_writeAll (hnodup.sublist (map_fst_setting?_sublist settings)),
    lookupEntry_filterMap_setting? hnodup hname, get?_default name hname]
  cases (lookupEntry name settings).bind Value.bool? <;> rfl

/-- Unknown rules make no difference to what settings give. -/
theorem rulesOutcome_filter (settings : List (String × Value)) :
    rulesOutcome (settings.filter isKnown) = rulesOutcome settings := by
  have hmisfit : (settings.filter isKnown).find? isMisfit = settings.find? isMisfit := by
    rw [List.find?_filter]
    refine congrArg (settings.find? ·) (funext fun setting => ?_)
    rw [Bool.decide_and, Bool.decide_eq_true, Bool.decide_eq_true, isMisfit, ← Bool.and_assoc,
      Bool.and_self]
  have htaken : taken (settings.filter isKnown) = taken settings := by
    rw [taken, taken, List.filterMap_filter]
    refine congrArg (fun f => default.rules.writeAll (settings.filterMap f)) (funext fun setting => ?_)
    cases h : isKnown setting <;> simp [setting?, h]
  rw [rulesOutcome, rulesOutcome, hmisfit, htaken]

end HdlLint.Config
