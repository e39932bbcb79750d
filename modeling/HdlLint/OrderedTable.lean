/-!
# Tables in order of insertion

A table from names to values that remembers the order in which its names came. Writing to a name
that is present keeps its place; a name that was erased and comes again stands last. The order is
part of a table's value, and no name occurs twice (`nodup`).

* `get?_insert`, `get?_erase`: what the operations do to a look-up;
* `names_insert`: what writing does to the order.
-/

namespace HdlLint

/-- The value of a name in a list of entries. -/
def lookupEntry {α : Type} (name : String) : List (String × α) → Option α
  | [] => none
  | e :: es => if e.1 = name then some e.2 else lookupEntry name es

/-- Writes a value to a name: in its place where it is present, else behind all others. -/
def writeEntry {α : Type} (name : String) (value : α) : List (String × α) → List (String × α)
  | [] => [(name, value)]
  | e :: es => if e.1 = name then (name, value) :: es else e :: writeEntry name value es

variable {α : Type}

theorem mem_names_writeEntry {name n : String} {value : α} {es : List (String × α)} :
    n ∈ (writeEntry name value es).map Prod.fst ↔ n = name ∨ n ∈ es.map Prod.fst := by
  induction es with
  | nil => simp [writeEntry]
  | cons e es ih =>
    by_cases h : e.1 = name
    · simp [writeEntry, h]
    · rw [writeEntry, if_neg h, List.map_cons, List.mem_cons, ih, List.map_cons, List.mem_cons]
      constructor <;> rintro (h | h | h) <;> simp [h]

theorem nodup_names_writeEntry {name : String} {value : α} {es : List (String × α)}
    (h : (es.map Prod.fst).Nodup) : ((writeEntry name value es).map Prod.fst).Nodup := by
  induction es with
  | nil => simp [writeEntry]
  | cons e es ih =>
    rw [List.map_cons, List.nodup_cons] at h
    by_cases hn : e.1 = name
    · rw [writeEntry, if_pos hn, List.map_cons, List.nodup_cons, ← hn]
      exact h
    · rw [writeEntry, if_neg hn, List.map_cons, List.nodup_cons, mem_names_writeEntry]
      exact ⟨fun hm => hm.elim hn h.1, ih h.2⟩

/-- A table from names to values, in the order in which the names came. -/
structure OrderedTable (α : Type) where
  entries : List (String × α)
  /-- No name occurs twice. -/
  nodup : (entries.map Prod.fst).Nodup

namespace OrderedTable

@[ext] theorem ext {s t : OrderedTable α} (h : s.entries = t.entries) : s = t := by
  cases s; cases t; cases h; rfl

/-- The table without entries. -/
def empty : OrderedTable α :=
  ⟨[], List.nodup_nil⟩

instance : Inhabited (OrderedTable α) := ⟨empty⟩

instance : EmptyCollection (OrderedTable α) := ⟨empty⟩

/-- The names of a table, in order. -/
def names (t : OrderedTable α) : List String :=
  t.entries.map Prod.fst

/-- The values of a table, in the order of their names. -/
def values (t : OrderedTable α) : List α :=
  t.entries.map Prod.snd

/-- The value of a name. -/
def get? (t : OrderedTable α) (name : String) : Option α :=
  lookupEntry name t.entries

/-- Whether a name is present. -/
def contains (t : OrderedTable α) (name : String) : Bool :=
  (t.get? name).isSome

/-- Writes a value to a name: in its place where it is present, else behind all others. -/
def insert (t : OrderedTable α) (name : String) (value : α) : OrderedTable α :=
  ⟨writeEntry name value t.entries, nodup_names_writeEntry t.nodup⟩

/-- Removes a name. -/
def erase (t : OrderedTable α) (name : String) : OrderedTable α :=
  ⟨t.entries.filter (·.1 ≠ name), by
    refine List.Pairwise.map _ (fun _ _ h => h) ?_
    exact List.Pairwise.filter _ (List.pairwise_map.1 t.nodup)⟩

/-- Writes all entries of the second table to the first one, in order. -/
def update (s t : OrderedTable α) : OrderedTable α :=
  t.entries.foldl (fun acc e => acc.insert e.1 e.2) s

/-- The table that arises by writing a list of entries in order. -/
def ofList (es : List (String × α)) : OrderedTable α :=
  es.foldl (fun acc e => acc.insert e.1 e.2) empty

/-- Applies a function to all values. -/
def map {β : Type} (f : α → β) (t : OrderedTable α) : OrderedTable β :=
  ⟨t.entries.map fun e => (e.1, f e.2), by
    have h : ((fun e : String × β => e.1) ∘ fun e : String × α => (e.1, f e.2)) = Prod.fst := rfl
    rw [List.map_map, h]
    exact t.nodup⟩

/-! ## Look-up -/

theorem lookupEntry_writeEntry (name n : String) (value : α) (es : List (String × α)) :
    lookupEntry n (writeEntry name value es) =
      if name = n then some value else lookupEntry n es := by
  induction es with
  | nil => simp [writeEntry, lookupEntry]
  | cons e es ih =>
    by_cases h : e.1 = name <;> by_cases hn : name = n
    · simp [writeEntry, lookupEntry, h, hn]
    · simp [writeEntry, lookupEntry, h, hn]
    · subst hn
      simp [writeEntry, lookupEntry, h, ih]
    · simp [writeEntry, lookupEntry, h, ih, hn]

theorem get?_insert (t : OrderedTable α) (name n : String) (value : α) :
    (t.insert name value).get? n = if name = n then some value else t.get? n :=
  lookupEntry_writeEntry name n value t.entries

theorem lookupEntry_filter_ne (name n : String) (es : List (String × α)) :
    lookupEntry n (es.filter (·.1 ≠ name)) = if name = n then none else lookupEntry n es := by
  induction es with
  | nil => simp [lookupEntry]
  | cons e es ih =>
    by_cases h : e.1 = name
    · by_cases hn : name = n
      · simpa [List.filter_cons, lookupEntry, h, hn] using ih
      · simpa [List.filter_cons, lookupEntry, h, hn] using ih
    · by_cases hn : name = n
      · subst hn
        simpa [List.filter_cons, lookupEntry, h] using ih
      · rw [if_neg hn] at ih ⊢
        simp only [List.filter_cons, h, lookupEntry, ne_eq, not_false_eq_true, decide_true, if_true]
        rw [ih]

theorem get?_erase (t : OrderedTable α) (name n : String) :
    (t.erase name).get? n = if name = n then none else t.get? n :=
  lookupEntry_filter_ne name n t.entries

@[simp] theorem get?_empty (name : String) : (empty : OrderedTable α).get? name = none := rfl

/-! ## Order -/

@[simp] theorem names_empty : (empty : OrderedTable α).names = [] := rfl

theorem map_fst_writeEntry_of_mem {name : String} {es : List (String × α)}
    (h : name ∈ es.map Prod.fst) (value : α) :
    (writeEntry name value es).map Prod.fst = es.map Prod.fst := by
  induction es with
  | nil => cases h
  | cons e es ih =>
    by_cases he : e.1 = name
    · rw [writeEntry, if_pos he, List.map_cons, List.map_cons, he]
    · rw [List.map_cons, List.mem_cons] at h
      rw [writeEntry, if_neg he, List.map_cons, List.map_cons,
        ih (h.resolve_left fun hn => he hn.symm)]

theorem writeEntry_of_not_mem {name : String} {es : List (String × α)}
    (h : name ∉ es.map Prod.fst) (value : α) : writeEntry name value es = es ++ [(name, value)] := by
  induction es with
  | nil => rfl
  | cons e es ih =>
    rw [List.map_cons, List.mem_cons, not_or] at h
    rw [writeEntry, if_neg fun he => h.1 he.symm, ih h.2]
    rfl

/-- Writing to a name that is present keeps all places; a new name stands last. -/
theorem names_insert (t : OrderedTable α) (name : String) (value : α) :
    (t.insert name value).names = if name ∈ t.names then t.names else t.names ++ [name] := by
  split
  · exact map_fst_writeEntry_of_mem ‹_› value
  · show (writeEntry name value t.entries).map Prod.fst = _
    rw [writeEntry_of_not_mem ‹_› value, List.map_append]
    rfl

/-- Removing a name keeps the order of all others. -/
theorem names_erase (t : OrderedTable α) (name : String) :
    (t.erase name).names = t.names.filter (· ≠ name) := by
  rw [names, names, List.filter_map]
  rfl

end OrderedTable

end HdlLint
