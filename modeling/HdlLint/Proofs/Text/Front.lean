/-!
# The front of a text

The longest front of a text whose characters all have a property, and what stands behind it. It ends
where a character without the property follows (`takeWhile_append_of_head`).
-/

namespace HdlLint.Text

variable {p : Char → Bool}

theorem mem_takeWhile {s : List Char} : ∀ c ∈ s.takeWhile p, p c = true :=
  List.all_eq_true.mp List.all_takeWhile

theorem head?_dropWhile (p : Char → Bool) (s : List Char) :
    ∀ c ∈ (s.dropWhile p).head?, p c = false := by
  intro c hc
  have h := List.head?_dropWhile_not p s
  rw [Option.mem_def.mp hc] at h
  exact h

theorem takeWhile_append_of_head {a b : List Char} (ha : ∀ c ∈ a, p c = true)
    (hb : ∀ c ∈ b.head?, p c = false) : (a ++ b).takeWhile p = a := by
  rw [List.takeWhile_append_of_pos ha]
  cases b with
  | nil => exact List.append_nil a
  | cons c b => rw [List.takeWhile_cons_of_neg (Bool.eq_false_iff.mp (hb c rfl)), List.append_nil]

theorem dropWhile_of_head {s : List Char} (h : ∀ c ∈ s.head?, p c = false) : s.dropWhile p = s := by
  cases s with
  | nil => rfl
  | cons c s => exact List.dropWhile_cons_of_neg (Bool.eq_false_iff.mp (h c rfl))

theorem dropWhile_append_of_head (a : List Char) {b : List Char} (h : ∀ c ∈ b.head?, p c = false) :
    (a ++ b).dropWhile p = a.dropWhile p ++ b := by
  induction a with
  | nil => exact dropWhile_of_head h
  | cons c a ih =>
    rw [List.cons_append, List.dropWhile_cons, List.dropWhile_cons, ih]
    split <;> rfl

theorem dropWhile_idem (p : Char → Bool) (s : List Char) :
    (s.dropWhile p).dropWhile p = s.dropWhile p :=
  dropWhile_of_head (head?_dropWhile p s)

end HdlLint.Text
