import HdlLint.Proofs.Syntax.Preorder
import Mathlib.Logic.Function.Iterate

/-!
# Addresses in a tree

A place in a tree has an address: the numbers of the children to go to, from the root down
(`Tree.at?`). In lexicographic order an address stands in front of those that go on from it and of
those that turn to a later child somewhere, so the pre-order lists what is present in a tree by its
addresses (`positions`): each address once (`mem_positions`), in increasing order
(`pairwise_positions`). The walk visits this list, one entry a turn of its loop (`walk_positions`).
-/

namespace HdlLint.Tree

/-- What is present at an address: the numbers of the children to go to, from the root down. -/
def at? : Tree → List Nat → Option Tree
  | t, [] => if t.isPresent then some t else none
  | t, i :: address =>
    match t.children[i]? with
    | some child => child.at? address
    | none => none

mutual

/-- What is present in a tree in pre-order, each with its address. -/
def positions : Tree → List (List Nat × Tree)
  | .node head children => ([], .node head children) :: positionsFrom 0 children
  | .token t => [([], .token t)]
  | .absent => []

/-- What is present in some children, the first of which has the given number. -/
def positionsFrom : (first : Nat) → List Tree → List (List Nat × Tree)
  | _, [] => []
  | first, t :: ts => t.positions.map (fun p => (first :: p.1, p.2)) ++ positionsFrom (first + 1) ts

end

/-! ## The entries -/

mutual

theorem map_snd_positions (t : Tree) : t.positions.map Prod.snd = t.preorder := by
  cases t with
  | node head children => rw [positions, List.map_cons, map_snd_positionsFrom, preorder]
  | token tok => rfl
  | absent => rfl

theorem map_snd_positionsFrom (first : Nat) (ts : List Tree) :
    (positionsFrom first ts).map Prod.snd = preorderAll ts := by
  cases ts with
  | nil => rfl
  | cons t ts =>
    rw [positionsFrom, List.map_append, List.map_map, map_snd_positionsFrom, preorderAll,
      ← map_snd_positions t]
    rfl

end

theorem at?_cons_eq_some_iff {t u : Tree} {i : Nat} {address : List Nat} :
    t.at? (i :: address) = some u ↔
      ∃ child, t.children[i]? = some child ∧ child.at? address = some u := by
  rw [at?]
  cases t.children[i]? <;> simp

theorem at?_nil_eq_some_iff {t u : Tree} : t.at? [] = some u ↔ t.isPresent = true ∧ t = u := by
  rw [at?]
  split <;> simp_all

mutual

/-- What is present is listed with its address, and nothing else is. -/
theorem mem_positions (t : Tree) (address : List Nat) (u : Tree) :
    (address, u) ∈ t.positions ↔ t.at? address = some u := by
  cases t with
  | node head children =>
    rw [positions, List.mem_cons, mem_positionsFrom]
    cases address with
    | nil =>
      rw [at?_nil_eq_some_iff]
      simp [isPresent, eq_comm]
    | cons i address =>
      rw [at?_cons_eq_some_iff, Tree.children]
      constructor
      · rintro (heq | ⟨j, child, below, hchild, heq, hat⟩)
        · cases heq
        · obtain ⟨rfl, rfl⟩ := List.cons.inj heq
          exact ⟨child, by rwa [Nat.zero_add], hat⟩
      · rintro ⟨child, hchild, hat⟩
        exact .inr ⟨i, child, address, hchild, by rw [Nat.zero_add], hat⟩
  | token tok =>
    rw [positions, List.mem_singleton]
    cases address with
    | nil =>
      rw [at?_nil_eq_some_iff]
      simp [isPresent, eq_comm]
    | cons i address => simp [at?, Tree.children]
  | absent =>
    rw [positions]
    cases address with
    | nil => simp [at?, isPresent]
    | cons i address => simp [at?, Tree.children]

theorem mem_positionsFrom (first : Nat) (ts : List Tree) (address : List Nat) (u : Tree) :
    (address, u) ∈ positionsFrom first ts ↔
      ∃ i child below, ts[i]? = some child ∧ address = (first + i) :: below ∧
        child.at? below = some u := by
  cases ts with
  | nil => simp [positionsFrom]
  | cons t ts =>
    rw [positionsFrom, List.mem_append, List.mem_map, mem_positionsFrom]
    constructor
    · rintro (⟨⟨below, u⟩, hmem, heq⟩ | ⟨i, child, below, hchild, rfl, hat⟩)
      · obtain ⟨rfl, rfl⟩ := Prod.mk.inj heq
        exact ⟨0, t, below, rfl, rfl, (mem_positions t below u).mp hmem⟩
      · exact ⟨i + 1, child, below, hchild, by rw [Nat.add_assoc, Nat.add_comm 1], hat⟩
    · rintro ⟨i, child, below, hchild, rfl, hat⟩
      cases i with
      | zero =>
        obtain rfl := Option.some.inj hchild
        exact .inl ⟨(below, u), (mem_positions t below u).mpr hat, rfl⟩
      | succ i => exact .inr ⟨i, child, below, hchild, by rw [Nat.add_assoc, Nat.add_comm 1], hat⟩

end

mutual

/-- The addresses increase from each entry to all behind it. -/
theorem pairwise_positions (t : Tree) : t.positions.Pairwise fun p q => p.1 < q.1 := by
  cases t with
  | node head children =>
    rw [positions, List.pairwise_cons]
    refine ⟨fun p hp => ?_, pairwise_positionsFrom 0 children⟩
    obtain ⟨i, child, below, -, haddress, -⟩ := (mem_positionsFrom 0 children p.1 p.2).mp hp
    rw [haddress]
    exact List.nil_lt_cons _ _
  | token tok => exact List.pairwise_singleton _ _
  | absent => exact .nil

theorem pairwise_positionsFrom (first : Nat) (ts : List Tree) :
    (positionsFrom first ts).Pairwise fun p q => p.1 < q.1 := by
  cases ts with
  | nil => exact .nil
  | cons t ts =>
    rw [positionsFrom, List.pairwise_append, List.pairwise_map]
    refine ⟨(pairwise_positions t).imp fun hlt => ?_, pairwise_positionsFrom (first + 1) ts, ?_⟩
    · exact List.cons_lt_cons_iff.mpr (.inr ⟨rfl, hlt⟩)
    · intro p hp q hq
      obtain ⟨p, -, rfl⟩ := List.mem_map.mp hp
      obtain ⟨i, child, below, -, haddress, -⟩ := (mem_positionsFrom _ ts q.1 q.2).mp hq
      rw [haddress]
      exact List.cons_lt_cons_iff.mpr (.inl (by omega))

end

theorem isPresent_of_at? {t u : Tree} {address : List Nat} (h : t.at? address = some u) :
    u.isPresent = true := by
  induction address generalizing t with
  | nil =>
    obtain ⟨ht, rfl⟩ := at?_nil_eq_some_iff.mp h
    exact ht
  | cons i address ih =>
    obtain ⟨child, -, hat⟩ := at?_cons_eq_some_iff.mp h
    exact ih hat

theorem isPresent_of_mem_preorder {t u : Tree} (h : u ∈ t.preorder) : u.isPresent = true := by
  rw [← map_snd_positions] at h
  obtain ⟨p, hp, rfl⟩ := List.mem_map.mp h
  exact isPresent_of_at? ((mem_positions t p.1 p.2).mp hp)

/-! ## The loop -/

/-- One turn of the loop of the walk: the tree on top of the stack makes room for its present
children, the first of which is on top then. -/
def turn : List Tree → List Tree
  | [] => []
  | t :: stack => t.children.filter isPresent ++ stack

/-- The walk visits what is on top of the stack at each turn, and ends with an empty stack. -/
theorem head?_iterate_turn (stack : List Tree) (n : Nat) :
    (turn^[n] stack).head? = (walkStack stack)[n]? := by
  induction n generalizing stack with
  | zero =>
    cases stack with
    | nil => rw [walkStack]; rfl
    | cons t stack => rw [walkStack]; rfl
  | succ n ih =>
    rw [Function.iterate_succ_apply, ih]
    cases stack with
    | nil => rw [turn, walkStack]; rfl
    | cons t stack => rw [turn, walkStack.eq_2, List.getElem?_cons_succ]

/-! ## Nodes and tokens -/

theorem map_token_filterMap_token? {ts : List Tree} (h : ∀ t ∈ ts, t.isPresent = true) :
    (ts.filterMap token?).map Tree.token = ts.filter fun t => !t.isNode := by
  induction ts with
  | nil => rfl
  | cons t ts ih =>
    obtain ⟨ht, hts⟩ := List.forall_mem_cons.mp h
    cases t with
    | node head children =>
      rw [List.filterMap_cons_none rfl, List.filter_cons_of_neg (by simp [isNode]), ih hts]
    | token tok =>
      have htok : token? (.token tok) = some tok := rfl
      rw [List.filterMap_cons_some htok, List.filter_cons_of_pos rfl, List.map_cons, ih hts]
    | absent => cases ht

/-- The walk visits what is present in a tree by increasing addresses, each address once: a node, then
its present children from left to right with all below them. Its loop has emptied the stack after
as many turns. The nodes and the tokens are those entries, in the same order, and together they are
all that the walk visits. -/
theorem walk_positions {t : Tree} (h : t.isPresent = true) :
    t.walk = t.preorder ∧
    (∀ n, (turn^[n] [t]).head? = t.walk[n]?) ∧
    t.walk = t.positions.map Prod.snd ∧
    (∀ address u, (address, u) ∈ t.positions ↔ t.at? address = some u) ∧
    (t.positions.Pairwise fun p q => p.1 < q.1) ∧
    t.nodes = (t.positions.filter fun p => p.2.isNode).map Prod.snd ∧
    t.tokens = t.positions.filterMap (fun p => token? p.2) ∧
    (t.nodes ++ t.tokens.map Tree.token).Perm t.walk := by
  have hwalk := walk_eq_preorder h
  refine ⟨hwalk, head?_iterate_turn [t], hwalk.trans (map_snd_positions t).symm, mem_positions t,
    pairwise_positions t, ?_, ?_, ?_⟩
  · rw [nodes_eq_preorder, ← map_snd_positions, List.filter_map]
    rfl
  · rw [tokens_eq_preorder, ← map_snd_positions, List.filterMap_map]
    rfl
  · rw [nodes_eq_preorder, tokens_eq_preorder, hwalk,
      map_token_filterMap_token? fun u hu => isPresent_of_mem_preorder hu]
    exact List.filter_append_perm isNode t.preorder

/-- A name as a leaf of a tree. -/
def sampleLeaf (name : String) : Tree :=
  .token ⟨⟨"Identifier"⟩, name, name, .origin, []⟩

/-- A module with three names, the second of them in a region behind an absent child. -/
def sampleBranches : Tree :=
  .node ⟨.moduleDeclaration, .origin, []⟩
    [sampleLeaf "a", .absent, .node ⟨.generateRegion, .origin, []⟩ [sampleLeaf "b"], sampleLeaf "c"]

/-- The absent child keeps its number and is not visited. -/
theorem walk_positions_branches :
    sampleBranches.isPresent = true ∧
    sampleBranches.walk.map kindName? = ["ModuleDeclaration", "Identifier", "GenerateRegion",
      "Identifier", "Identifier"].map some ∧
    sampleBranches.positions.map Prod.fst = [[], [0], [2], [2, 0], [3]] ∧
    sampleBranches.tokens.map Token.raw = ["a", "b", "c"] := by
  obtain ⟨hwalk, -, -, -, -, -, htokens, -⟩ := @walk_positions sampleBranches rfl
  refine ⟨rfl, ?_, rfl, ?_⟩
  · rw [hwalk]
    rfl
  · rw [htokens]
    rfl

end HdlLint.Tree
