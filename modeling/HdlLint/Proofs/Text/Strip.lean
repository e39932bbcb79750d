import HdlLint.Proofs.Text.Front
import HdlLint.Text.Blank
import Mathlib.Data.List.TakeWhile

/-!
# Texts without their blanks

What `strip` leaves of a text with a solid middle (`strip_append`), and what it takes away of any
text (`exists_strip`).
-/

namespace HdlLint.Text

/-- A text that neither starts nor ends with a blank. -/
structure Solid (s : List Char) : Prop where
  ne_nil : s ≠ []
  head : ∀ c ∈ s.head?, isBlank c = false
  last : ∀ c ∈ s.getLast?, isBlank c = false

theorem stripRight_append {b c : List Char} (hb : ∀ d ∈ b.getLast?, isBlank d = false)
    (hc : ∀ d ∈ c, isBlank d = true) : stripRight (b ++ c) = b := by
  rw [stripRight, List.reverse_append,
    List.dropWhile_append_of_pos fun d hd => hc d (List.mem_reverse.mp hd), dropWhile_of_head,
    List.reverse_reverse]
  rw [List.head?_reverse]
  exact hb

/-- Blanks in front of a solid text and behind it are taken away. -/
theorem strip_append {b c : List Char} (a : List Char) (hb : Solid b)
    (hc : ∀ d ∈ c, isBlank d = true) : strip (a ++ (b ++ c)) = a.dropWhile isBlank ++ b := by
  have hhead : ∀ d ∈ (b ++ c).head?, isBlank d = false := by
    obtain ⟨e, v, rfl⟩ := List.exists_cons_of_ne_nil hb.ne_nil
    exact hb.head
  rw [strip, stripLeft, dropWhile_append_of_head a hhead, ← List.append_assoc]
  refine stripRight_append (fun d hd => ?_) hc
  rw [List.getLast?_append, List.getLast?_eq_some_getLast hb.ne_nil] at hd
  exact hb.last d (by rw [List.getLast?_eq_some_getLast hb.ne_nil]; exact hd)

/-! ## What is taken away -/

/-- Stripping takes away blanks only. -/
theorem exists_strip (s : List Char) :
    ∃ x y, s = x ++ (strip s ++ y) ∧ (∀ c ∈ x, isBlank c = true) ∧ ∀ c ∈ y, isBlank c = true := by
  refine ⟨s.takeWhile isBlank, ((stripLeft s).reverse.takeWhile isBlank).reverse, ?_,
    List.all_eq_true.mp List.all_takeWhile, fun c hc => ?_⟩
  · rw [strip, stripRight, ← List.reverse_append, List.takeWhile_append_dropWhile,
      List.reverse_reverse, stripLeft, List.takeWhile_append_dropWhile]
  · exact List.all_eq_true.mp List.all_takeWhile c (List.mem_reverse.mp hc)

theorem head_stripLeft (s : List Char) : ∀ c ∈ (stripLeft s).head?, isBlank c = false := by
  intro c hc
  have h := List.head?_dropWhile_not isBlank s
  rw [← stripLeft, Option.mem_def.mp hc] at h
  exact h

theorem head?_strip {s : List Char} {c : Char} (hc : c ∈ (strip s).head?) :
    c ∈ (stripLeft s).head? := by
  have hprefix : strip s <+: stripLeft s := by
    rw [strip, stripRight, ← List.reverse_suffix, List.reverse_reverse]
    exact List.dropWhile_suffix _
  obtain ⟨y, hy⟩ := hprefix
  rw [← hy, List.head?_append, Option.mem_def.mp hc]
  rfl

theorem head_strip (s : List Char) : ∀ c ∈ (strip s).head?, isBlank c = false :=
  fun c hc => head_stripLeft s c (head?_strip hc)

theorem last_strip (s : List Char) : ∀ c ∈ (strip s).getLast?, isBlank c = false := by
  intro c hc
  have h := List.head?_dropWhile_not isBlank (stripLeft s).reverse
  rw [strip, stripRight, List.getLast?_reverse] at hc
  rw [Option.mem_def.mp hc] at h
  exact h

theorem strip_strip (s : List Char) : strip (strip s) = strip s := by
  have hleft : stripLeft (strip s) = strip s := dropWhile_of_head (head_strip s)
  conv => lhs; rw [strip, hleft]
  rw [strip, stripRight, stripRight, List.reverse_reverse, dropWhile_idem]

theorem strip_eq_nil_iff {s : List Char} : strip s = [] ↔ ∀ c ∈ s, isBlank c = true := by
  constructor
  · intro hnil
    obtain ⟨x, y, hs, hx, hy⟩ := exists_strip s
    rw [hs, hnil]
    exact fun c hc => (List.mem_append.mp hc).elim (hx c) (hy c)
  · intro hblank
    have hleft : stripLeft s = [] := by
      rw [stripLeft, List.dropWhile_eq_nil_iff]
      exact hblank
    rw [strip, hleft]
    rfl

/-- More blanks on either side are taken away as well. -/
theorem strip_pad {x y : List Char} (hx : ∀ c ∈ x, isBlank c = true)
    (hy : ∀ c ∈ y, isBlank c = true) (s : List Char) : strip (x ++ (s ++ y)) = strip s := by
  obtain ⟨a, b, hs, ha, hb⟩ := exists_strip s
  by_cases hnil : strip s = []
  · rw [hnil, strip_eq_nil_iff]
    have hblank := strip_eq_nil_iff.mp hnil
    intro c hc
    rcases List.mem_append.mp hc with hc | hc
    · exact hx c hc
    · exact (List.mem_append.mp hc).elim (hblank c) (hy c)
  · have hsolid : Solid (strip s) := ⟨hnil, head_strip s, last_strip s⟩
    have hfront : (x ++ a).dropWhile isBlank = [] :=
      List.dropWhile_eq_nil_iff.mpr fun c hc => (List.mem_append.mp hc).elim (hx c) (ha c)
    have hparts : x ++ (s ++ y) = (x ++ a) ++ (strip s ++ (b ++ y)) := by
      conv => lhs; rw [hs]
      simp only [List.append_assoc]
    rw [hparts, strip_append _ hsolid fun c hc => (List.mem_append.mp hc).elim (hb c) (hy c), hfront,
      List.nil_append]

/-- Stripping takes away no character that is no blank. -/
theorem count_strip {c : Char} (hc : isBlank c = false) (s : List Char) :
    (strip s).count c = s.count c := by
  obtain ⟨x, y, hs, hx, hy⟩ := exists_strip s
  have hblank : ∀ z : List Char, (∀ d ∈ z, isBlank d = true) → z.count c = 0 := fun z hz =>
    List.count_eq_zero.mpr fun hmem => by
      have := hz c hmem
      rw [hc] at this
      cases this
  conv => rhs; rw [hs]
  rw [List.count_append, List.count_append, hblank x hx, hblank y hy, Nat.zero_add, Nat.add_zero]

end HdlLint.Text
