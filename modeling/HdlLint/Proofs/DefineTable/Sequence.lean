import HdlLint.Define
import HdlLint.Proofs.OrderedTable.Update
import Mathlib.Data.List.Induction

/-!
# Tables of definitions that come one after the other

Definitions are added to a table one by one. In the table of a sequence every name stands once, in
the order in which it came first (`names_ofSequence`), and has its last definition
(`get?_ofSequence`).
-/

namespace HdlLint

theorem eraseDups_concat {α : Type} [DecidableEq α] (l : List α) (a : α) :
    (l ++ [a]).eraseDups = if a ∈ l then l.eraseDups else l.eraseDups ++ [a] := by
  have hrest : [a].removeAll l = if a ∈ l then [] else [a] := by
    by_cases ha : a ∈ l <;> simp [List.removeAll, ha]
  rw [List.eraseDups_append, hrest]
  split
  · rw [List.eraseDups_nil, List.append_nil]
  · simp [List.eraseDups_cons]

namespace DefineTable

/-- The table of definitions that come one after the other. -/
def ofSequence (ds : List Define) : DefineTable :=
  ds.foldl define OrderedTable.empty

theorem ofSequence_append (ds es : List Define) :
    ofSequence (ds ++ es) = es.foldl define (ofSequence ds) :=
  List.foldl_append

theorem names_ofSequence (ds : List Define) :
    (ofSequence ds).names = (ds.map Define.identifier).eraseDups := by
  induction ds using List.reverseRecOn with
  | nil => rfl
  | append_singleton ds d ih =>
    rw [ofSequence_append, List.foldl_cons, List.foldl_nil, define, OrderedTable.names_insert, ih,
      List.map_append, List.map_singleton, eraseDups_concat]
    simp only [List.mem_eraseDups]

theorem get?_ofSequence (ds : List Define) (name : String) :
    (ofSequence ds).get? name = (ds.filter (·.identifier = name)).getLast? := by
  induction ds using List.reverseRecOn with
  | nil => rfl
  | append_singleton ds d ih =>
    rw [ofSequence_append, List.foldl_cons, List.foldl_nil, define, OrderedTable.get?_insert, ih,
      List.filter_append]
    by_cases hd : d.identifier = name
    · simp [hd]
    · simp [hd]

end DefineTable

end HdlLint
