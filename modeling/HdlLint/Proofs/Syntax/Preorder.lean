import HdlLint.Syntax.Walk

/-!
# Walks are pre-orders

The walk with a stack visits what the recursive order lists: `walkStack_eq_preorderAll` says so for
every stack of trees that are there, `nodes_eq_preorder` and `tokens_eq_preorder` for the nodes and
the tokens of any tree.
-/

namespace HdlLint.Tree

theorem preorderAll_append (ts us : List Tree) :
    preorderAll (ts ++ us) = preorderAll ts ++ preorderAll us := by
  induction ts with
  | nil => simp [preorderAll]
  | cons t ts ih => rw [List.cons_append, preorderAll, preorderAll, ih, List.append_assoc]

/-- Children that are not there do not show in the pre-order. -/
theorem preorderAll_filter_isPresent (ts : List Tree) :
    preorderAll (ts.filter isPresent) = preorderAll ts := by
  induction ts with
  | nil => rfl
  | cons t ts ih =>
    cases t with
    | absent => rw [List.filter_cons_of_neg (by simp [isPresent]), ih, preorderAll, preorder]; rfl
    | node | token => rw [List.filter_cons_of_pos rfl, preorderAll, preorderAll, ih]

/-- A tree that is there, then its children. -/
theorem preorder_eq_cons {t : Tree} (h : t.isPresent = true) :
    t.preorder = t :: preorderAll t.children := by
  cases t with
  | node head sub => simp [preorder, children]
  | token tok => simp [preorder, children, preorderAll]
  | absent => cases h

theorem walkStack_eq_preorderAll (stack : List Tree) (h : ∀ t ∈ stack, t.isPresent = true) :
    walkStack stack = preorderAll stack := by
  induction stack using walkStack.induct with
  | case1 => simp [walkStack, preorderAll]
  | case2 t stack ih =>
    have hall : ∀ u ∈ t.children.filter isPresent ++ stack, u.isPresent = true := by
      intro u hu
      rcases List.mem_append.mp hu with hu | hu
      · exact (List.mem_filter.mp hu).2
      · exact h u (List.mem_cons_of_mem _ hu)
    rw [walkStack, ih hall, preorderAll_append, preorderAll_filter_isPresent, preorderAll,
      preorder_eq_cons (h t List.mem_cons_self), List.cons_append]

theorem walk_eq_preorder {t : Tree} (h : t.isPresent = true) : t.walk = t.preorder := by
  rw [walk, walkStack_eq_preorderAll [t] (by simpa using h), preorderAll, preorderAll,
    List.append_nil]

theorem nodes_eq_preorder (t : Tree) : t.nodes = t.preorder.filter isNode := by
  cases t with
  | absent => simp [nodes, walk, walkStack, children, preorder, isNode]
  | node | token => rw [nodes, walk_eq_preorder rfl]

/-- The token that a tree is. -/
def token? : Tree → Option Token
  | .token tok => some tok
  | _ => none

theorem tokens_eq_preorder (t : Tree) : t.tokens = t.preorder.filterMap token? := by
  have hw : t.tokens = t.walk.filterMap token? :=
    congrArg (fun f => t.walk.filterMap f) (funext fun u => by cases u <;> rfl)
  cases t with
  | absent => rw [hw]; simp [walk, walkStack, children, preorder, token?]
  | node | token => rw [hw, walk_eq_preorder rfl]

/-! ## What is below a tree -/

theorem preorder_sublist_preorderAll {t : Tree} {ts : List Tree} (h : t ∈ ts) :
    t.preorder.Sublist (preorderAll ts) := by
  obtain ⟨front, back, rfl⟩ := List.append_of_mem h
  rw [preorderAll_append, preorderAll]
  exact (List.sublist_append_left _ _).trans (List.sublist_append_right _ _)

mutual

/-- The pre-order of a tree in another one stands in that of the other one. -/
theorem sublist_of_mem_preorder {t u : Tree} (h : u ∈ t.preorder) :
    u.preorder.Sublist t.preorder := by
  cases t with
  | node head children =>
    rw [preorder] at h
    rcases List.mem_cons.mp h with rfl | h
    · exact .refl _
    · rw [preorder]
      exact (sublist_of_mem_preorderAll h).cons _
  | token tok =>
    obtain rfl := List.mem_singleton.mp h
    exact .refl _
  | absent => cases h

theorem sublist_of_mem_preorderAll {ts : List Tree} {u : Tree} (h : u ∈ preorderAll ts) :
    u.preorder.Sublist (preorderAll ts) := by
  cases ts with
  | nil => cases h
  | cons t ts =>
    rw [preorderAll] at h ⊢
    rcases List.mem_append.mp h with h | h
    · exact (sublist_of_mem_preorder h).trans (List.sublist_append_left _ _)
    · exact (sublist_of_mem_preorderAll h).trans (List.sublist_append_right _ _)

end

/-- A child of a name that is there is one of the children. -/
theorem field_mem_children {t : Tree} {name : String} (h : (t.field name).isPresent = true) :
    t.field name ∈ t.children := by
  cases t with
  | node head children =>
    rw [field] at h ⊢
    split at h
    · next place hplace =>
      rw [List.getD_eq_getElem?_getD] at h ⊢
      cases hget : children[place]? with
      | none =>
        rw [hget] at h
        cases h
      | some child => exact List.mem_of_getElem? hget
    · cases h
  | token tok => cases h
  | absent => cases h

/-- A tree stands in front of what is below a child of a name that is there. -/
theorem cons_preorder_field_sublist {t : Tree} {name : String}
    (h : (t.field name).isPresent = true) :
    (t :: (t.field name).preorder).Sublist t.preorder := by
  have ht : t.isPresent = true := by
    cases t with
    | absent => cases h
    | _ => rfl
  rw [preorder_eq_cons ht]
  exact (preorder_sublist_preorderAll (field_mem_children h)).cons_cons t

end HdlLint.Tree
