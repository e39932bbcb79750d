import HdlLint.Proofs.DefineTable.Directive
import HdlLint.Proofs.Syntax.Preorder

/-!
# Definitions behind a tree

The directives of a tree in pre-order (`Tree.directivesInOrder`), and what they make of a table of
definitions: `DefineTable.thread_directivesInOrder`.
-/

namespace HdlLint

namespace Tree

/-- The directives in front of the tokens of a tree, the tokens in pre-order. -/
def directivesInOrder (t : Tree) : List Directive :=
  (t.preorder.filterMap token?).flatMap directivesOf

end Tree

namespace DefineTable

theorem threadToken_eq_foldl (table : DefineTable) (t : Token) :
    threadToken table t = (Tree.directivesOf t).foldl Directive.apply table := by
  unfold threadToken Tree.directivesOf
  induction t.trivia generalizing table with
  | nil => rfl
  | cons trivia rest ih =>
    cases trivia with
    | text kind raw => exact ih table
    | directive d => exact ih (d.apply table)

theorem thread_eq_foldl (table : DefineTable) (t : Tree) :
    table.thread t = t.directivesInOrder.foldl Directive.apply table := by
  rw [thread, Tree.tokens_eq_preorder, Tree.directivesInOrder]
  induction t.preorder.filterMap Tree.token? generalizing table with
  | nil => rfl
  | cons tok toks ih =>
    rw [List.foldl_cons, ih, threadToken_eq_foldl, List.flatMap_cons, List.foldl_append]

/-- The table behind the first directives of a tree. -/
def behindFirst (table : DefineTable) (t : Tree) (n : Nat) : DefineTable :=
  (t.directivesInOrder.take n).foldl Directive.apply table

theorem thread_eq_foldl_drop (table : DefineTable) (t : Tree) (n : Nat) :
    table.thread t = (t.directivesInOrder.drop n).foldl Directive.apply (table.behindFirst t n) := by
  rw [thread_eq_foldl, behindFirst, ← List.foldl_append, List.take_append_drop]

theorem behindFirst_succ {table : DefineTable} {t : Tree} {n : Nat} {d : Directive}
    (h : t.directivesInOrder[n]? = some d) :
    table.behindFirst t (n + 1) = d.apply (table.behindFirst t n) := by
  rw [behindFirst, List.take_add_one, h, List.foldl_append]
  rfl

/-- What a name stands for behind a tree is decided by the last directive that concerns it: a
definition gives it, an `undef` or `undefineall` takes it away, and where there is none it is kept.
Definitions stay under their own names. From any directive on, names that are not taken away any
more keep their order, and one that was away and is defined stands last. An `undefineall` makes all
tables alike, and two trees are threaded like their directives in one list. -/
theorem thread_directivesInOrder (table : DefineTable) (t : Tree) :
    (∀ name, (table.thread t).get? name =
      match (t.directivesInOrder.filter (Directive.concerns name)).getLast? with
      | some (.define n arguments body) => some (Define.ofDirective n arguments body)
      | some _ => none
      | none => table.get? name) ∧
    (table.IsKeyed → (table.thread t).IsKeyed) ∧
    (∀ n x y, y ∈ (table.behindFirst t n).names →
      (∀ d ∈ t.directivesInOrder.drop n, d.removes x = false ∧ d.removes y = false) →
      ([x, y].Sublist (table.thread t).names ↔ [x, y].Sublist (table.behindFirst t n).names)) ∧
    (∀ n name arguments body, t.directivesInOrder[n]? = some (.define name arguments body) →
      name ∉ (table.behindFirst t n).names →
      (table.behindFirst t (n + 1)).names = (table.behindFirst t n).names ++ [name]) ∧
    (.undefineAll ∈ t.directivesInOrder → ∀ other : DefineTable, other.thread t = table.thread t) ∧
    ∀ u : Tree, (table.thread t).thread u =
      (t.directivesInOrder ++ u.directivesInOrder).foldl Directive.apply table := by
  refine ⟨fun name => ?_, fun h => ?_, fun n x y hy hds => ?_, ?_, fun h other => ?_, fun u => ?_⟩
  · rw [thread_eq_foldl, Directive.get?_foldl_apply]
    split
    · rename_i d hd
      cases d <;> simp [hd, Directive.definition?]
    · rename_i hd
      rw [hd]
  · rw [thread_eq_foldl]
    exact Directive.isKeyed_foldl_apply _ h
  · rw [thread_eq_foldl_drop table t n]
    exact Directive.sublist_names_foldl_apply hds hy
  · intro n name arguments body hd hn
    rw [behindFirst_succ hd, Directive.names_apply]
    exact if_neg hn
  · rw [thread_eq_foldl, thread_eq_foldl]
    exact Directive.foldl_apply_of_undefineAll h other table
  · rw [thread_eq_foldl, thread_eq_foldl, List.foldl_append]

end DefineTable

end HdlLint
