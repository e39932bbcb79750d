import HdlLint.DefineThread
import HdlLint.Proofs.OrderedTable.Lookup

/-!
# What directives do to a table of definitions

One directive (`get?_apply`, `names_apply`), then a list of them: the last directive that concerns a
name decides its value (`get?_foldl_apply`), names that stay keep their order
(`sublist_names_foldl_apply`), and nothing is left of what stands in front of an `undefineall`
(`foldl_apply_of_undefineAll`).
-/

namespace HdlLint

namespace Directive

/-- Whether a directive decides what a name stands for. -/
def concerns (name : String) : Directive → Bool
  | .define n .. => n = name
  | .undef n => n = name
  | .undefineAll => true
  | .other _ => false

/-- Whether a directive takes a name away. -/
def removes (name : String) : Directive → Bool
  | .undef n => n = name
  | .undefineAll => true
  | _ => false

/-- The definition that a directive gives. -/
def definition? : Directive → Option Define
  | .define name arguments body => some (Define.ofDirective name arguments body)
  | _ => none

end Directive

namespace DefineTable

/-- Every definition stands under its own name. -/
def IsKeyed (table : DefineTable) : Prop :=
  ∀ e ∈ table.entries, e.1 = e.2.identifier

end DefineTable

namespace Directive

open DefineTable (IsKeyed)

/-! ## One directive -/

theorem get?_apply (table : DefineTable) (d : Directive) (name : String) :
    (d.apply table).get? name =
      if d.concerns name then d.definition? else table.get? name := by
  cases d with
  | define n arguments body =>
    simp [apply, DefineTable.define, Define.ofDirective, OrderedTable.get?_insert, concerns,
      definition?]
  | undef n => simp [apply, OrderedTable.get?_erase, concerns, definition?]
  | undefineAll => rfl
  | other kind => rfl

theorem isKeyed_define {table : DefineTable} (h : IsKeyed table) (d : Define) :
    IsKeyed (table.define d) := by
  intro e he
  rcases mem_writeEntry he with rfl | he
  · rfl
  · exact h e he

theorem isKeyed_apply {table : DefineTable} (h : IsKeyed table) (d : Directive) :
    IsKeyed (d.apply table) := by
  intro e he
  cases d with
  | define n arguments body => exact isKeyed_define h _ e he
  | undef n => exact h e (List.mem_filter.mp he).1
  | undefineAll => cases he
  | other kind => exact h e he

theorem names_apply (table : DefineTable) (d : Directive) :
    (d.apply table).names = match d with
      | .define name .. => if name ∈ table.names then table.names else table.names ++ [name]
      | .undef name => table.names.filter (· ≠ name)
      | .undefineAll => []
      | .other _ => table.names := by
  cases d with
  | define n arguments body => exact OrderedTable.names_insert table n _
  | undef n => exact OrderedTable.names_erase table n
  | undefineAll => rfl
  | other kind => rfl

theorem mem_names_apply {table : DefineTable} {d : Directive} {x : String}
    (hx : x ∈ table.names) (hd : d.removes x = false) : x ∈ (d.apply table).names := by
  rw [names_apply]
  cases d with
  | define n arguments body =>
    dsimp only
    split
    · exact hx
    · exact List.mem_append_left _ hx
  | undef n => simp_all [removes, eq_comm]
  | undefineAll => cases hd
  | other kind => exact hx

/-- Two names that a directive does not take away keep their order. -/
theorem sublist_names_apply {table : DefineTable} {d : Directive} {x y : String}
    (hy : y ∈ table.names) (hdx : d.removes x = false) (hdy : d.removes y = false) :
    [x, y].Sublist (d.apply table).names ↔ [x, y].Sublist table.names := by
  rw [names_apply]
  cases d with
  | define n arguments body =>
    dsimp only
    split
    · rfl
    · rename_i hn
      refine ⟨fun h => ?_, fun h => h.trans (List.sublist_append_left _ _)⟩
      obtain ⟨front, back, hxy, hf, hb⟩ := List.sublist_append_iff.mp h
      cases back with
      | nil => rwa [hxy, List.append_nil]
      | cons z back =>
        have hz : z :: back = [n] := hb.eq_of_length_le (by simp)
        have hl : y = n := by
          have := congrArg List.getLast? hxy
          simpa [hz] using this
        exact absurd (hl ▸ hy) hn
  | undef n =>
    refine ⟨fun h => h.trans List.filter_sublist, fun h => ?_⟩
    have hf : [x, y].filter (· ≠ n) = [x, y] := by
      simp_all [removes, eq_comm]
    exact hf ▸ h.filter _
  | undefineAll => cases hdx
  | other kind => rfl

/-! ## Lists of directives -/

/-- The last directive that concerns a name decides what it stands for. -/
theorem get?_foldl_apply (ds : List Directive) (table : DefineTable) (name : String) :
    (ds.foldl Directive.apply table).get? name =
      match (ds.filter (concerns name)).getLast? with
      | some d => d.definition?
      | none => table.get? name := by
  induction ds generalizing table with
  | nil => rfl
  | cons d ds ih =>
    rw [List.foldl_cons, ih, get?_apply]
    by_cases hd : d.concerns name
    · rw [List.filter_cons_of_pos hd, List.getLast?_cons, if_pos hd]
      cases (ds.filter (concerns name)).getLast? <;> rfl
    · rw [List.filter_cons_of_neg hd, if_neg hd]

theorem isKeyed_foldl_apply (ds : List Directive) {table : DefineTable} (h : IsKeyed table) :
    IsKeyed (ds.foldl Directive.apply table) := by
  induction ds generalizing table with
  | nil => exact h
  | cons d ds ih => exact ih (isKeyed_apply h d)

/-- Names that are present throughout keep their order. -/
theorem sublist_names_foldl_apply {ds : List Directive} {table : DefineTable} {x y : String}
    (hds : ∀ d ∈ ds, d.removes x = false ∧ d.removes y = false) (hy : y ∈ table.names) :
    [x, y].Sublist (ds.foldl Directive.apply table).names ↔ [x, y].Sublist table.names := by
  induction ds generalizing table with
  | nil => rfl
  | cons d ds ih =>
    obtain ⟨hdx, hdy⟩ := hds d List.mem_cons_self
    rw [List.foldl_cons, ih (fun d hd => hds d (List.mem_cons_of_mem _ hd)) (mem_names_apply hy hdy),
      sublist_names_apply hy hdx hdy]

/-- Behind an `undefineall` it does not matter what was defined in front of it. -/
theorem foldl_apply_of_undefineAll {ds : List Directive} (h : .undefineAll ∈ ds)
    (table other : DefineTable) :
    ds.foldl Directive.apply table = ds.foldl Directive.apply other := by
  obtain ⟨front, back, rfl⟩ := List.append_of_mem h
  simp only [List.foldl_append, List.foldl_cons, apply]

end Directive

end HdlLint
