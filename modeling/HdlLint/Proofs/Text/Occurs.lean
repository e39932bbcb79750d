import HdlLint.Text.Split

/-!
# Texts within texts

`occursIn` finds a part anywhere in a text (`occursIn_iff`). A part without line ends that occurs in
several lines occurs in one of them (`infix_append_cons_iff`): no occurrence goes across a line end.
What stands in front of a character and from it on is told where it occurs first
(`takeWhile_ne_append_cons`, `dropWhile_ne_append_cons`), and a text is cut at each occurrence
(`splitOn_append_cons`), with all other characters in the parts (`exists_mem_splitOn_iff`).
-/

namespace HdlLint.Text

theorem afterStart?_isSome (s text : List Char) :
    (afterStart? s text).isSome = true ↔ s <+: text := by
  fun_induction afterStart? s text with
  | case1 text => exact ⟨fun _ => List.nil_prefix, fun _ => rfl⟩
  | case2 start d text ih =>
    rw [ih, List.cons_prefix_cons]
    exact ⟨fun h => ⟨rfl, h⟩, fun h => h.2⟩
  | case3 c start d text hcd =>
    rw [List.cons_prefix_cons]
    exact ⟨nofun, fun h => absurd h.1 hcd⟩
  | case4 => exact ⟨nofun, fun h => absurd (List.prefix_nil.mp h) (List.cons_ne_nil _ _)⟩

theorem afterStart?_eq_none_iff {s text : List Char} : afterStart? s text = none ↔ ¬s <+: text := by
  rw [← afterStart?_isSome, Option.not_isSome_iff_eq_none]

theorem afterStart?_eq_some_iff {s text rest : List Char} :
    afterStart? s text = some rest ↔ text = s ++ rest := by
  fun_induction afterStart? s text with
  | case1 text => exact Option.some_inj
  | case2 start d text ih => rw [ih, List.cons_append, List.cons.injEq, and_iff_right rfl]
  | case3 c start d text hcd =>
    rw [List.cons_append, List.cons.injEq]
    exact ⟨nofun, fun h => absurd h.1.symm hcd⟩
  | case4 => exact ⟨nofun, nofun⟩

theorem occursIn_iff {part s : List Char} : occursIn part s = true ↔ part <:+: s := by
  induction s with
  | nil => rw [occursIn, List.isEmpty_iff, List.infix_nil]
  | cons c s ih => rw [occursIn, Bool.or_eq_true, afterStart?_isSome, ih, List.infix_cons_iff]

/-- A part that is not empty and does not hold the character between two texts occurs in one of
them. -/
theorem infix_append_cons_iff {part a b : List Char} {c : Char} (hne : part ≠ []) (hc : c ∉ part) :
    part <:+: a ++ c :: b ↔ part <:+: a ∨ part <:+: b := by
  constructor
  · intro h
    rcases List.infix_append_iff.mp h with h | h | ⟨l, r, rfl, hl, hr⟩
    · exact .inl h
    · rcases List.infix_cons_iff.mp h with h | h
      · cases part with
        | nil => exact absurd rfl hne
        | cons d part => exact absurd (List.cons_prefix_cons.mp h).1 fun hd => hc (hd ▸ List.mem_cons_self)
      · exact .inr h
    · cases r with
      | nil =>
        rw [List.append_nil]
        exact .inl hl.isInfix
      | cons d r =>
        have hd := (List.cons_prefix_cons.mp hr).1
        exact absurd (List.mem_append_right l (hd ▸ List.mem_cons_self)) hc
  · rintro (h | h)
    · exact h.trans (List.prefix_append a _).isInfix
    · exact h.trans ((List.suffix_cons c b).trans (List.suffix_append a _)).isInfix

/-! ## The first occurrence of a character -/

theorem takeWhile_ne_append_cons {a : List Char} {c : Char} (h : c ∉ a) (b : List Char) :
    (a ++ c :: b).takeWhile (· ≠ c) = a := by
  have hall : ∀ d ∈ a, decide (d ≠ c) = true := fun d hd => decide_eq_true fun he => h (he ▸ hd)
  rw [List.takeWhile_append_of_pos hall, List.takeWhile_cons_of_neg (by simp), List.append_nil]

theorem dropWhile_ne_append_cons {a : List Char} {c : Char} (h : c ∉ a) (b : List Char) :
    (a ++ c :: b).dropWhile (· ≠ c) = c :: b := by
  have hall : ∀ d ∈ a, decide (d ≠ c) = true := fun d hd => decide_eq_true fun he => h (he ▸ hd)
  rw [List.dropWhile_append_of_pos hall, List.dropWhile_cons_of_neg (by simp)]

/-! ## Cutting -/

/-- A text is cut at a character, and on either side of it. -/
theorem splitOn_append_cons (sep : Char) (a b : List Char) :
    Text.splitOn sep (a ++ sep :: b) = Text.splitOn sep a ++ Text.splitOn sep b := by
  induction a with
  | nil => simp [Text.splitOn]
  | cons c a ih =>
    rw [List.cons_append, Text.splitOn, Text.splitOn, ih]
    split
    · rfl
    · cases h : Text.splitOn sep a with
      | nil => exact absurd h (Text.splitOn_ne_nil sep a)
      | cons part parts => rfl

/-- A character other than the one that cuts stays in one of the parts. -/
theorem exists_mem_splitOn_iff {sep c : Char} (hne : c ≠ sep) (s : List Char) :
    (∃ part ∈ Text.splitOn sep s, c ∈ part) ↔ c ∈ s := by
  induction s with
  | nil => simp [Text.splitOn]
  | cons d s ih =>
    rw [Text.splitOn, List.mem_cons, ← ih]
    by_cases hd : d = sep
    · simp [hd, hne]
    · rw [if_neg hd]
      cases h : Text.splitOn sep s with
      | nil => exact absurd h (Text.splitOn_ne_nil sep s)
      | cons part parts => simp [or_assoc]

end HdlLint.Text
