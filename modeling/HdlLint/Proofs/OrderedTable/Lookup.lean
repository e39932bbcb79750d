import HdlLint.OrderedTable

/-!
# Look-up among entries

A name is looked up from the front, also in lists of entries in which it stands several times
(`lookupEntry_append`). Where no name occurs twice the entry of a name is the only one
(`lookupEntry_eq_some_iff`), so the order makes no difference (`lookupEntry_perm`).
-/

namespace HdlLint

variable {α : Type}

theorem mem_writeEntry {name : String} {value : α} {es : List (String × α)}
    {e : String × α} (h : e ∈ writeEntry name value es) : e = (name, value) ∨ e ∈ es := by
  induction es with
  | nil => simpa [writeEntry] using h
  | cons e' es ih =>
    rw [writeEntry] at h
    split at h
    · exact (List.mem_cons.mp h).imp_right (List.mem_cons_of_mem _)
    · rcases List.mem_cons.mp h with rfl | h
      · exact .inr List.mem_cons_self
      · exact (ih h).imp_right (List.mem_cons_of_mem _)

theorem lookupEntry_eq_none_iff {name : String} {es : List (String × α)} :
    lookupEntry name es = none ↔ name ∉ es.map Prod.fst := by
  induction es with
  | nil => simp [lookupEntry]
  | cons e es ih =>
    by_cases h : e.1 = name
    · simp [lookupEntry, h]
    · simp [lookupEntry, h, ih, Ne.symm h]

theorem lookupEntry_append (name : String) (es fs : List (String × α)) :
    lookupEntry name (es ++ fs) = (lookupEntry name es).or (lookupEntry name fs) := by
  induction es with
  | nil => rfl
  | cons e es ih =>
    rw [List.cons_append, lookupEntry, lookupEntry, ih]
    split
    · rfl
    · rfl

theorem lookupEntry_append_of_not_mem {name : String} {es : List (String × α)}
    (h : name ∉ es.map Prod.fst) (value : α) : lookupEntry name (es ++ [(name, value)]) = some value := by
  rw [lookupEntry_append, lookupEntry_eq_none_iff.mpr h, Option.none_or]
  exact if_pos rfl

/-- An entry under another name makes no difference, wherever it stands. -/
theorem lookupEntry_append_cons_of_ne {name other : String} (h : other ≠ name) (value : α)
    (es fs : List (String × α)) :
    lookupEntry name (es ++ (other, value) :: fs) = lookupEntry name (es ++ fs) := by
  rw [lookupEntry_append, lookupEntry_append, lookupEntry, if_neg h]

/-! ## Entries under distinct names -/

theorem mem_of_lookupEntry {name : String} {value : α} {es : List (String × α)}
    (h : lookupEntry name es = some value) : (name, value) ∈ es := by
  induction es with
  | nil => cases h
  | cons e es ih =>
    rw [lookupEntry] at h
    split at h
    · next he => exact List.mem_cons.mpr (.inl (Prod.ext he.symm (Option.some.inj h).symm))
    · exact List.mem_cons_of_mem e (ih h)

theorem lookupEntry_eq_some_iff {name : String} {value : α} {es : List (String × α)}
    (hes : (es.map Prod.fst).Nodup) : lookupEntry name es = some value ↔ (name, value) ∈ es := by
  refine ⟨mem_of_lookupEntry, fun h => ?_⟩
  induction es with
  | nil => cases h
  | cons e es ih =>
    rw [List.map_cons, List.nodup_cons] at hes
    rw [lookupEntry]
    rcases List.mem_cons.mp h with rfl | h
    · exact if_pos rfl
    · have hname : name ∈ es.map Prod.fst := List.mem_map_of_mem (f := Prod.fst) h
      rw [if_neg fun he : e.1 = name => hes.1 (he ▸ hname), ih hes.2 h]

/-- Where no name occurs twice the order makes no difference. -/
theorem lookupEntry_perm {es fs : List (String × α)} (h : es.Perm fs) (hes : (es.map Prod.fst).Nodup)
    (name : String) : lookupEntry name fs = lookupEntry name es := by
  have hfs : (fs.map Prod.fst).Nodup := (h.map Prod.fst).nodup_iff.mp hes
  refine Option.ext fun value => ?_
  rw [lookupEntry_eq_some_iff hes, lookupEntry_eq_some_iff hfs, h.mem_iff]

/-! ## Entries that are asked for -/

/-- Whether two tables have the same entries under some names, in whatever order. -/
def SameUnder (names : List String) (es fs : List (String × α)) : Prop :=
  (es.filter (names.contains ·.1)).Perm (fs.filter (names.contains ·.1))

variable {names : List String} {es fs : List (String × α)}

theorem sameUnder_of_perm (h : es.Perm fs) : SameUnder names es fs :=
  h.filter _

theorem sameUnder_cons {name : String} (h : name ∉ names) (value : α) (es fs : List (String × α)) :
    SameUnder names (es ++ fs) (es ++ (name, value) :: fs) := by
  rw [SameUnder, List.filter_append, List.filter_append, List.filter_cons_of_neg]
  rwa [List.contains_iff_mem]

theorem lookupEntry_filter {name : String} (h : name ∈ names) (es : List (String × α)) :
    lookupEntry name (es.filter (names.contains ·.1)) = lookupEntry name es := by
  induction es with
  | nil => rfl
  | cons e es ih =>
    rw [List.filter_cons, lookupEntry]
    split
    · rw [lookupEntry, ih]
    · next he =>
      rw [ih, if_neg]
      rintro rfl
      exact he (List.contains_iff_mem.mpr h)

theorem SameUnder.lookupEntry_eq (h : SameUnder names es fs) (hes : (es.map Prod.fst).Nodup)
    {name : String} (hname : name ∈ names) : lookupEntry name fs = lookupEntry name es := by
  rw [← lookupEntry_filter hname fs, ← lookupEntry_filter hname es]
  exact lookupEntry_perm h (hes.sublist (List.filter_sublist.map Prod.fst)) name

end HdlLint
