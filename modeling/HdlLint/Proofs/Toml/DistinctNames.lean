import HdlLint.Proofs.OrderedTable.Lookup
import HdlLint.Toml.Document

/-!
# No name twice

In the tables of a document no name occurs twice, however deep they lie (`distinctNames_of_read`).
Tables come about by writing to names, which keeps the names distinct, so every line that is added to
a document leaves it that way (`Tidy.addLine`).
-/

namespace HdlLint

/-- A value in whose tables, at any depth, no name occurs twice. -/
inductive Value.DistinctNames : Value → Prop
  | atom {v : Value} (hlist : v.list? = none) (htable : v.table? = none) : DistinctNames v
  | list {items : List Value} (h : ∀ v ∈ items, DistinctNames v) : DistinctNames (.list items)
  | table {entries : List (String × Value)} (hnodup : (entries.map Prod.fst).Nodup)
      (h : ∀ e ∈ entries, DistinctNames e.2) : DistinctNames (.table entries)

namespace Value.DistinctNames

variable {entries : List (String × Value)} {items : List Value}

theorem nodup (h : DistinctNames (.table entries)) : (entries.map Prod.fst).Nodup := by
  cases h with
  | atom _ htable => cases htable
  | table hnodup _ => exact hnodup

theorem of_mem (h : DistinctNames (.table entries)) {e : String × Value} (he : e ∈ entries) :
    e.2.DistinctNames := by
  cases h with
  | atom _ htable => cases htable
  | table _ h => exact h e he

theorem item (h : DistinctNames (.list items)) {v : Value} (hv : v ∈ items) : v.DistinctNames := by
  cases h with
  | atom hlist _ => cases hlist
  | list h => exact h v hv

theorem of_lookup (h : DistinctNames (.table entries)) {name : String} {v : Value}
    (hv : lookupEntry name entries = some v) : v.DistinctNames :=
  h.of_mem (mem_of_lookupEntry hv)

/-- Writing to a name keeps all names distinct. -/
theorem writeEntry (h : DistinctNames (.table entries)) (name : String) {v : Value}
    (hv : v.DistinctNames) : DistinctNames (.table (writeEntry name v entries)) := by
  refine .table (nodup_names_writeEntry h.nodup) fun e he => ?_
  rcases mem_writeEntry he with rfl | he
  · exact hv
  · exact h.of_mem he

end Value.DistinctNames

namespace Toml

open Value (DistinctNames)

theorem bind_eq_ok_iff {ε α β : Type} {x : Except ε α} {f : α → Except ε β} {b : β} :
    x.bind f = .ok b ↔ ∃ a, x = .ok a ∧ f a = .ok b := by
  cases x with
  | error e => exact ⟨nofun, fun ⟨_, h, _⟩ => nomatch h⟩
  | ok a => exact ⟨fun h => ⟨a, rfl, h⟩, fun ⟨_, h, hf⟩ => Except.ok.inj h ▸ hf⟩

/-! ## Tables while they are built -/

/-- Entries from which tables without a name twice come about. -/
def Tidy (entries : Entries) : Prop :=
  DistinctNames (.table (toEntries entries))

variable {entries entries' : Entries}

theorem tidy_nil : Tidy [] :=
  .table List.nodup_nil fun _ h => nomatch h

theorem toEntries_writeEntry (name : String) (node : Node) (entries : Entries) :
    toEntries (writeEntry name node entries) = writeEntry name node.toValue (toEntries entries) := by
  induction entries with
  | nil => rfl
  | cons e entries ih =>
    by_cases he : e.1 = name
    · rw [writeEntry, if_pos he, toEntries, toEntries, writeEntry, if_pos he]
    · rw [writeEntry, if_neg he, toEntries, toEntries, writeEntry, if_neg he, ih]

theorem lookupEntry_toEntries (name : String) (entries : Entries) :
    lookupEntry name (toEntries entries) = (lookupEntry name entries).map Node.toValue := by
  induction entries with
  | nil => rfl
  | cons e entries ih =>
    by_cases he : e.1 = name
    · rw [toEntries, lookupEntry, if_pos he, lookupEntry, if_pos he, Option.map_some]
    · rw [toEntries, lookupEntry, if_neg he, lookupEntry, if_neg he, ih]

namespace Tidy

theorem writeEntry (h : Tidy entries) (name : String) {node : Node} (hnode : node.toValue.DistinctNames) :
    Tidy (writeEntry name node entries) := by
  rw [Tidy, toEntries_writeEntry]
  exact DistinctNames.writeEntry h name hnode

theorem of_lookup (h : Tidy entries) {name : String} {node : Node}
    (hnode : lookupEntry name entries = some node) : node.toValue.DistinctNames := by
  have hvalue : lookupEntry name (toEntries entries) = some node.toValue := by
    rw [lookupEntry_toEntries, hnode, Option.map_some]
  exact DistinctNames.of_lookup h hvalue

end Tidy

theorem tidy_table {opening : Opening} {inner : Entries} :
    (Node.table opening inner).toValue.DistinctNames ↔ Tidy inner := by
  rw [Node.toValue, Tidy]

theorem tidy_tables {done : List Value} {last : Entries} :
    (Node.tables done last).toValue.DistinctNames ↔ (∀ v ∈ done, v.DistinctNames) ∧ Tidy last := by
  rw [Node.toValue, Tidy]
  constructor
  · exact fun h => ⟨fun v hv => h.item (List.mem_append_left _ hv), h.item (by simp)⟩
  · rintro ⟨hdone, hlast⟩
    refine .list fun v hv => ?_
    rcases List.mem_append.mp hv with hv | hv
    · exact hdone v hv
    · exact List.mem_singleton.mp hv ▸ hlast

theorem Tidy.update {change : Entries → Option Entries}
    (hchange : ∀ {es es'}, Tidy es → change es = some es' → Tidy es') {path : List String}
    (h : Tidy entries) (heq : update change path entries = some entries') : Tidy entries' := by
  fun_induction Toml.update change path entries generalizing entries' with
  | case1 entries => exact hchange h heq
  | case2 name path entries hlookup ih =>
    obtain ⟨inner, hinner, rfl⟩ := Option.map_eq_some_iff.mp heq
    exact h.writeEntry name (tidy_table.mpr (ih tidy_nil hinner))
  | case3 name path entries opening inner hlookup ih =>
    obtain ⟨inner', hinner, rfl⟩ := Option.map_eq_some_iff.mp heq
    exact h.writeEntry name (tidy_table.mpr (ih (tidy_table.mp (h.of_lookup hlookup)) hinner))
  | case4 name path entries done last hlookup ih =>
    obtain ⟨last', hlast, rfl⟩ := Option.map_eq_some_iff.mp heq
    obtain ⟨hdone, htidy⟩ := tidy_tables.mp (h.of_lookup hlookup)
    exact h.writeEntry name (tidy_tables.mpr ⟨hdone, ih htidy hlast⟩)
  | case5 => cases heq

theorem Tidy.declare {k : Key} (h : Tidy entries) (heq : declare k entries = some entries') :
    Tidy entries' := by
  refine h.update (fun {es es'} hes hchange => ?_) heq
  split at hchange
  · cases hchange
    exact hes.writeEntry k.name (tidy_table.mpr tidy_nil)
  · next hlookup =>
    cases hchange
    exact hes.writeEntry k.name (tidy_table.mpr (tidy_table.mp (hes.of_lookup hlookup)))
  · cases hchange

theorem Tidy.extend {k : Key} (h : Tidy entries) (heq : extend k entries = some entries') :
    Tidy entries' := by
  refine h.update (fun {es es'} hes hchange => ?_) heq
  split at hchange
  · cases hchange
    exact hes.writeEntry k.name (tidy_tables.mpr ⟨(fun _ hv => nomatch hv), tidy_nil⟩)
  · next hlookup =>
    cases hchange
    obtain ⟨hdone, hlast⟩ := tidy_tables.mp (hes.of_lookup hlookup)
    refine hes.writeEntry k.name (tidy_tables.mpr ⟨fun v hv => ?_, tidy_nil⟩)
    rcases List.mem_append.mp hv with hv | hv
    · exact hdone v hv
    · exact List.mem_singleton.mp hv ▸ hlast
  · cases hchange

theorem Tidy.assign {sectionNumber : Nat} {k : Key} {v : Value} (h : Tidy entries)
    (hv : v.DistinctNames) (heq : assign sectionNumber k v entries = some entries') :
    Tidy entries' := by
  rw [Toml.assign] at heq
  generalize k.parents = path at heq
  induction path generalizing entries entries' with
  | nil =>
    rw [assignAt] at heq
    split at heq
    · cases heq
      exact h.writeEntry k.name (by rw [Node.toValue]; exact hv)
    · cases heq
  | cons part path ih =>
    rw [assignAt] at heq
    split at heq
    · obtain ⟨inner, hinner, rfl⟩ := Option.map_eq_some_iff.mp heq
      exact h.writeEntry part (tidy_table.mpr (ih tidy_nil hinner))
    · next hlookup =>
      split at heq
      · obtain ⟨inner, hinner, rfl⟩ := Option.map_eq_some_iff.mp heq
        exact h.writeEntry part (tidy_table.mpr (ih (tidy_table.mp (h.of_lookup hlookup)) hinner))
      · cases heq
    · cases heq

/-! ## Values as they are read -/

theorem required_eq_ok_iff {α : Type} {o : Option α} {a : α} : required o = .ok a ↔ o = some a := by
  cases o with
  | none => exact ⟨nofun, nofun⟩
  | some b =>
    exact ⟨fun h => congrArg some (Except.ok.inj h), fun h => congrArg Except.ok (Option.some.inj h)⟩

theorem distinctNames_of_value? {n : Numeral} {v : Value} (h : n.value? = some v) : v.DistinctNames := by
  rw [Numeral.value?.eq_def] at h
  split at h
  · cases h
    exact .atom rfl rfl
  · split at h
    · cases h
    · cases h
      exact .atom rfl rfl
  · cases h
    exact .atom rfl rfl

theorem distinctNames_of_special? {cs rest : List Char} {v : Value} (h : special? cs = some (v, rest)) :
    v.DistinctNames := by
  rw [special?] at h
  generalize sign cs = p at h
  dsimp only at h
  split at h
  · cases h
    exact .atom rfl rfl
  · cases h
    exact .atom rfl rfl
  · cases h

theorem distinctNames_of_scalar {cs rest : List Char} {v : Value} (h : scalar cs = .ok (v, rest)) :
    v.DistinctNames := by
  rw [scalar.eq_def] at h
  split at h
  · obtain ⟨_, -, heq⟩ := bind_eq_ok_iff.mp h
    cases heq
    exact .atom rfl rfl
  · obtain ⟨_, -, heq⟩ := bind_eq_ok_iff.mp h
    cases heq
    exact .atom rfl rfl
  · cases h
    exact .atom rfl rfl
  · cases h
    exact .atom rfl rfl
  · split at h
    · cases h
      exact .atom rfl rfl
    · cases h
    · split at h
      · split at h
        · next hvalue =>
          cases h
          exact distinctNames_of_value? hvalue
        · cases h
      · exact distinctNames_of_special? (required_eq_ok_iff.mp h)

/-- What is read by its depth: a value, the rest of a list and the rest of a table on one line. -/
structure ReadsDistinct (depth : Nat) : Prop where
  element : ∀ {cs rest v}, element depth cs = .ok (v, rest) → v.DistinctNames
  listItems : ∀ {cs rest items}, listItems depth cs = .ok (items, rest) → ∀ v ∈ items, v.DistinctNames
  inlineEntries : ∀ {es cs rest es'}, Tidy es → inlineEntries depth es cs = .ok (es', rest) → Tidy es'

namespace ReadsDistinct

variable {depth : Nat} (ih : ReadsDistinct depth)

include ih

theorem succ_element {cs rest : List Char} {v : Value} (h : Toml.element (depth + 1) cs = .ok (v, rest)) :
    v.DistinctNames := by
  rw [Toml.element.eq_def] at h
  dsimp only at h
  split at h
  · obtain ⟨⟨items, rest'⟩, hitems, heq⟩ := bind_eq_ok_iff.mp h
    cases heq
    exact .list (ih.listItems hitems)
  · split at h
    · cases h
      exact tidy_nil
    · obtain ⟨⟨entries, rest'⟩, hentries, heq⟩ := bind_eq_ok_iff.mp h
      cases heq
      exact ih.inlineEntries tidy_nil hentries
  · exact distinctNames_of_scalar h

theorem succ_listItems {cs rest : List Char} {items : List Value}
    (h : Toml.listItems (depth + 1) cs = .ok (items, rest)) : ∀ v ∈ items, v.DistinctNames := by
  rw [Toml.listItems] at h
  obtain ⟨cs', -, h⟩ := bind_eq_ok_iff.mp h
  split at h
  · cases h
    exact fun _ hv => nomatch hv
  · obtain ⟨⟨item, rest₁⟩, hitem, h⟩ := bind_eq_ok_iff.mp h
    obtain ⟨rest₂, -, h⟩ := bind_eq_ok_iff.mp h
    split at h
    · cases h
      exact List.forall_mem_singleton.mpr (ih.element hitem)
    · obtain ⟨⟨more, rest₃⟩, hmore, heq⟩ := bind_eq_ok_iff.mp h
      cases heq
      exact List.forall_mem_cons.mpr ⟨ih.element hitem, ih.listItems hmore⟩
    · cases h

theorem succ_inlineEntries {es es' : Entries} {cs rest : List Char} (hes : Tidy es)
    (h : Toml.inlineEntries (depth + 1) es cs = .ok (es', rest)) : Tidy es' := by
  rw [Toml.inlineEntries] at h
  obtain ⟨⟨k, rest₁⟩, -, h⟩ := bind_eq_ok_iff.mp h
  obtain ⟨⟨v, rest₂⟩, hv, h⟩ := bind_eq_ok_iff.mp h
  obtain ⟨es₁, hassign, h⟩ := bind_eq_ok_iff.mp h
  have htidy : Tidy es₁ := hes.assign (ih.element hv) (required_eq_ok_iff.mp hassign)
  split at h
  · cases h
    exact htidy
  · exact ih.inlineEntries htidy h
  · cases h

end ReadsDistinct

theorem readsDistinct (depth : Nat) : ReadsDistinct depth := by
  induction depth with
  | zero =>
    refine ⟨fun h => ?_, fun h => ?_, fun _ h => ?_⟩
    · rw [element] at h
      cases h
    · rw [listItems] at h
      cases h
    · rw [inlineEntries] at h
      cases h
  | succ depth ih => exact ⟨ih.succ_element, ih.succ_listItems, ih.succ_inlineEntries⟩

/-! ## Documents as they are read -/

/-- A line leaves no name twice. -/
theorem Tidy.addLine {d d' : Document} {cs rest : List Char} (h : Tidy d.entries)
    (heq : d.addLine cs = .ok (d', rest)) : Tidy d'.entries := by
  rw [Document.addLine.eq_def] at heq
  split at heq
  · cases heq
    exact h
  · obtain ⟨⟨k, rest₁⟩, -, heq⟩ := bind_eq_ok_iff.mp heq
    obtain ⟨entries, hextend, heq⟩ := bind_eq_ok_iff.mp heq
    cases heq
    exact h.extend (required_eq_ok_iff.mp hextend)
  · obtain ⟨⟨k, rest₁⟩, -, heq⟩ := bind_eq_ok_iff.mp heq
    obtain ⟨entries, hdeclare, heq⟩ := bind_eq_ok_iff.mp heq
    cases heq
    exact h.declare (required_eq_ok_iff.mp hdeclare)
  · obtain ⟨⟨k, rest₁⟩, -, heq⟩ := bind_eq_ok_iff.mp heq
    obtain ⟨⟨v, rest₂⟩, hv, heq⟩ := bind_eq_ok_iff.mp heq
    obtain ⟨entries, hassign, heq⟩ := bind_eq_ok_iff.mp heq
    cases heq
    have hvalue := (readsDistinct _).element hv
    exact h.update (fun hes => hes.assign hvalue) (required_eq_ok_iff.mp hassign)

theorem Tidy.addLines {depth : Nat} {d d' : Document} {cs : List Char} (h : Tidy d.entries)
    (heq : d.addLines depth cs = .ok d') : Tidy d'.entries := by
  induction depth generalizing d cs with
  | zero =>
    cases heq
    exact h
  | succ depth ih =>
    rw [Document.addLines] at heq
    split at heq
    · cases heq
      exact h
    · exact ih h heq
    · obtain ⟨⟨d₁, rest⟩, hline, heq⟩ := bind_eq_ok_iff.mp heq
      obtain ⟨rest₁, -, heq⟩ := bind_eq_ok_iff.mp heq
      have htidy := h.addLine hline
      split at heq
      · cases heq
        exact htidy
      · exact ih htidy heq
      · cases heq

/-- In the tables of a document no name occurs twice. -/
theorem distinctNames_of_read {text : String} {entries : List (String × Value)}
    (h : read text = .ok entries) : DistinctNames (.table entries) := by
  rw [read] at h
  obtain ⟨d, hd, heq⟩ := bind_eq_ok_iff.mp h
  cases heq
  exact tidy_nil.addLines hd

end Toml

end HdlLint
