import HdlLint.Proofs.OrderedTable.Lookup

/-!
# Writing several entries

The laws of `OrderedTable.update`, places of names included: a later write of a name hides an
earlier one, writes of two names commute once the first name has its place, and so updating by a
table that was itself built up entry by entry is updating by these entries (`update_insert`).
Updates associate (`update_update`) and the empty table changes nothing (`empty_update`). A name has
the place that it had first and the value that was written last (`names_update`, `get?_update`).
-/

namespace HdlLint

variable {α : Type}

theorem writeEntry_writeEntry_self (name : String) (v w : α) (es : List (String × α)) :
    writeEntry name v (writeEntry name w es) = writeEntry name v es := by
  induction es with
  | nil => exact if_pos rfl
  | cons e es ih =>
    by_cases he : e.1 = name
    · rw [writeEntry, if_pos he, writeEntry, if_pos rfl, writeEntry, if_pos he]
    · rw [writeEntry, if_neg he, writeEntry, if_neg he, ih, writeEntry, if_neg he]

/-- A name that has its place already can be written before or after another one. -/
theorem writeEntry_comm {name other : String} (hne : name ≠ other) {es : List (String × α)}
    (h : name ∈ es.map Prod.fst) (v w : α) :
    writeEntry name v (writeEntry other w es) = writeEntry other w (writeEntry name v es) := by
  induction es with
  | nil => cases h
  | cons e es ih =>
    rw [List.map_cons, List.mem_cons] at h
    by_cases he : e.1 = name
    · have ho : e.1 ≠ other := fun heo => hne (he.symm.trans heo)
      rw [writeEntry, if_neg ho, writeEntry, if_pos he, writeEntry, if_pos he, writeEntry,
        if_neg hne]
    · have hm := h.resolve_left fun hn => he hn.symm
      by_cases ho : e.1 = other
      · rw [writeEntry, if_pos ho, writeEntry, if_neg hne.symm, writeEntry, if_neg he, writeEntry,
          if_pos ho]
      · rw [writeEntry, if_neg ho, writeEntry, if_neg he, ih hm, writeEntry, if_neg he, writeEntry,
          if_neg ho]

theorem writeEntry_append_of_not_mem {name : String} {es : List (String × α)}
    (h : name ∉ es.map Prod.fst) (value other : α) :
    writeEntry name other (es ++ [(name, value)]) = es ++ [(name, other)] := by
  induction es with
  | nil => exact if_pos rfl
  | cons e es ih =>
    rw [List.map_cons, List.mem_cons, not_or] at h
    rw [List.cons_append, writeEntry, if_neg fun he => h.1 he.symm, ih h.2, List.cons_append]

namespace OrderedTable

theorem get?_eq_none_iff {t : OrderedTable α} {name : String} : t.get? name = none ↔ name ∉ t.names :=
  lookupEntry_eq_none_iff

theorem contains_iff {t : OrderedTable α} {name : String} : t.contains name = true ↔ name ∈ t.names := by
  rw [contains, Option.isSome_iff_ne_none, ne_eq, get?_eq_none_iff, Decidable.not_not]

theorem insert_insert_self (t : OrderedTable α) (name : String) (v w : α) :
    (t.insert name w).insert name v = t.insert name v :=
  ext (writeEntry_writeEntry_self name v w t.entries)

theorem insert_comm {t : OrderedTable α} {name other : String} (hne : name ≠ other)
    (h : name ∈ t.names) (v w : α) :
    (t.insert other w).insert name v = (t.insert name v).insert other w :=
  ext (writeEntry_comm hne h v w)

/-! ## Entries in order -/

/-- Writes a list of entries, in order. -/
def writeAll (s : OrderedTable α) (es : List (String × α)) : OrderedTable α :=
  es.foldl (fun acc e => acc.insert e.1 e.2) s

theorem update_eq_writeAll (s t : OrderedTable α) : s.update t = s.writeAll t.entries := rfl

theorem writeAll_cons (s : OrderedTable α) (e : String × α) (es : List (String × α)) :
    s.writeAll (e :: es) = (s.insert e.1 e.2).writeAll es := rfl

/-- A name with a place that no entry writes can be written before or after the entries. -/
theorem writeAll_insert {name : String} {es : List (String × α)} (hn : name ∉ es.map Prod.fst)
    {t : OrderedTable α} (ht : name ∈ t.names) (v : α) :
    (t.insert name v).writeAll es = (t.writeAll es).insert name v := by
  induction es generalizing t with
  | nil => rfl
  | cons e es ih =>
    rw [List.map_cons, List.mem_cons, not_or] at hn
    have hm : name ∈ (t.insert e.1 e.2).names := mem_names_writeEntry.mpr (.inr ht)
    rw [writeAll_cons, writeAll_cons, ← insert_comm hn.1 ht, ih hn.2 hm]

/-- Writing one entry more is the same before all entries are written and after it. -/
theorem writeAll_writeEntry {es : List (String × α)} (hes : (es.map Prod.fst).Nodup)
    (s : OrderedTable α) (name : String) (v : α) :
    s.writeAll (writeEntry name v es) = (s.writeAll es).insert name v := by
  induction es generalizing s with
  | nil => rfl
  | cons e es ih =>
    rw [List.map_cons, List.nodup_cons] at hes
    by_cases he : e.1 = name
    · subst he
      have hm : e.1 ∈ (s.insert e.1 e.2).names := mem_names_writeEntry.mpr (.inl rfl)
      rw [writeEntry, if_pos rfl, writeAll_cons, writeAll_cons, ← writeAll_insert hes.1 hm,
        insert_insert_self]
    · rw [writeEntry, if_neg he, writeAll_cons, writeAll_cons, ih hes.2]

/-- Entries with new names stand behind all others. -/
theorem entries_writeAll {es : List (String × α)} (hes : (es.map Prod.fst).Nodup)
    {s : OrderedTable α} (h : ∀ name ∈ es.map Prod.fst, name ∉ s.names) :
    (s.writeAll es).entries = s.entries ++ es := by
  induction es generalizing s with
  | nil => rw [List.append_nil]; rfl
  | cons e es ih =>
    rw [List.map_cons, List.nodup_cons] at hes
    have he : e.1 ∉ s.names := h e.1 (by simp)
    have hs : (s.insert e.1 e.2).entries = s.entries ++ [e] := writeEntry_of_not_mem he e.2
    rw [writeAll_cons, ih hes.2, hs, List.append_assoc]
    · rfl
    · intro name hn hi
      rcases mem_names_writeEntry.mp hi with rfl | hm
      · exact hes.1 hn
      · exact h name (List.mem_cons_of_mem _ hn) hm

/-- Entries whose names are all present change the values only. -/
theorem names_writeAll {es : List (String × α)} {s : OrderedTable α}
    (h : ∀ name ∈ es.map Prod.fst, name ∈ s.names) : (s.writeAll es).names = s.names := by
  induction es generalizing s with
  | nil => rfl
  | cons e es ih =>
    have hs : (s.insert e.1 e.2).names = s.names := by
      rw [names_insert, if_pos (h e.1 List.mem_cons_self)]
    rw [writeAll_cons, ih fun name hn => hs ▸ h name (List.mem_cons_of_mem _ hn), hs]

/-- The names that are new stand behind those with a place, in order. -/
theorem names_writeAll_of_nodup {es : List (String × α)} (hes : (es.map Prod.fst).Nodup)
    (s : OrderedTable α) :
    (s.writeAll es).names = s.names ++ (es.map Prod.fst).filter (· ∉ s.names) := by
  induction es generalizing s with
  | nil => exact (List.append_nil _).symm
  | cons e es ih =>
    rw [List.map_cons, List.nodup_cons] at hes
    have hrest : (es.map Prod.fst).filter (· ∉ (s.insert e.1 e.2).names) =
        (es.map Prod.fst).filter (· ∉ s.names) := by
      refine List.filter_congr fun name hname => ?_
      have hne : name ≠ e.1 := fun h => hes.1 (h ▸ hname)
      have hmem : name ∈ (s.insert e.1 e.2).names ↔ name = e.1 ∨ name ∈ s.names :=
        mem_names_writeEntry
      exact decide_eq_decide.mpr (not_congr (hmem.trans (or_iff_right hne)))
    rw [writeAll_cons, ih hes.2, hrest, names_insert, List.map_cons, List.filter_cons]
    by_cases he : e.1 ∈ s.names
    · rw [if_pos he, if_neg (by simpa using he)]
    · rw [if_neg he, if_pos (by simpa using he), List.append_assoc, List.singleton_append]

theorem get?_writeAll {es : List (String × α)} (hes : (es.map Prod.fst).Nodup) (s : OrderedTable α)
    (name : String) : (s.writeAll es).get? name = (lookupEntry name es).or (s.get? name) := by
  induction es generalizing s with
  | nil => rfl
  | cons e es ih =>
    rw [List.map_cons, List.nodup_cons] at hes
    rw [writeAll_cons, ih hes.2, get?_insert, lookupEntry]
    by_cases he : e.1 = name
    · rw [if_pos he, if_pos he, lookupEntry_eq_none_iff.mpr (he ▸ hes.1), Option.none_or, Option.some_or]
    · rw [if_neg he, if_neg he]

/-- Tables with the same names in the same order and the same values are the same. -/
theorem eq_of_names_of_get? {s t : OrderedTable α} (hnames : s.names = t.names)
    (hget : ∀ name, s.get? name = t.get? name) : s = t := by
  obtain ⟨es, hs⟩ := s
  obtain ⟨fs, ht⟩ := t
  refine ext ?_
  simp only [names, get?] at hnames hget ⊢
  clear ht
  induction es generalizing fs with
  | nil => exact (List.map_eq_nil_iff.mp hnames.symm).symm
  | cons e es ih =>
    cases fs with
    | nil => cases hnames
    | cons f fs =>
      rw [List.map_cons, List.map_cons, List.cons.injEq] at hnames
      rw [List.map_cons, List.nodup_cons] at hs
      have hvalue := hget e.1
      rw [lookupEntry, if_pos rfl, lookupEntry, if_pos hnames.1.symm, Option.some.injEq] at hvalue
      have hrest : ∀ name, lookupEntry name es = lookupEntry name fs := fun name => by
        have h := hget name
        rw [lookupEntry, lookupEntry, ← hnames.1] at h
        split at h
        · next he =>
          subst he
          rw [lookupEntry_eq_none_iff.mpr hs.1, lookupEntry_eq_none_iff.mpr (hnames.2 ▸ hs.1)]
        · exact h
      rw [ih hs.2 fs hnames.2 hrest, Prod.ext hnames.1 hvalue]

/-! ## Updates -/

theorem update_empty (s : OrderedTable α) : s.update empty = s := rfl

theorem empty_update (t : OrderedTable α) : (empty : OrderedTable α).update t = t := by
  refine ext ?_
  rw [update_eq_writeAll, entries_writeAll t.nodup fun _ _ => List.not_mem_nil]
  rfl

theorem update_insert (s t : OrderedTable α) (name : String) (v : α) :
    s.update (t.insert name v) = (s.update t).insert name v :=
  writeAll_writeEntry t.nodup s name v

theorem update_writeAll (s t : OrderedTable α) (es : List (String × α)) :
    s.update (t.writeAll es) = (s.update t).writeAll es := by
  induction es generalizing t with
  | nil => rfl
  | cons e es ih => rw [writeAll_cons, ih, update_insert, writeAll_cons]

theorem update_update (s t u : OrderedTable α) : s.update (t.update u) = (s.update t).update u :=
  update_writeAll s t u.entries

theorem names_update (s t : OrderedTable α) :
    (s.update t).names = s.names ++ t.names.filter (· ∉ s.names) :=
  names_writeAll_of_nodup t.nodup s

theorem get?_update (s t : OrderedTable α) (name : String) :
    (s.update t).get? name = (t.get? name).or (s.get? name) :=
  get?_writeAll t.nodup s name

end OrderedTable

end HdlLint
