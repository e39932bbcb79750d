import HdlLint.FileSystem

/-!
# Lines written and read

`Text.joinLines` puts an end behind each line. Cut at its line ends, such a text falls into its
lines again (`splitLines_joinLines`), and reading it as a text file leaves it as it is
(`not_mem_joinLines`, `newlines_of_not_mem`). A line that was cut out of a text holds no line end
(`isLine_of_mem_splitLines`). How a text is cut at a character, at an end or not, is told for any class
of ends with the carriage return in it (`cutLines_cons`, `cutLines_lineEnd`).
-/

namespace HdlLint.Text

/-- Whether a line is one: no character in it ends a line. -/
def IsLine (line : List Char) : Prop :=
  ∀ c ∈ line, isLineEnd c = false

instance (line : List Char) : Decidable (IsLine line) :=
  List.decidableBAll (fun c => isLineEnd c = false) line

/-- Lines as one text, each one with its end. -/
def joinLines (lines : List (List Char)) : List Char :=
  lines.flatMap (· ++ ['\n'])

theorem isLine_nil : IsLine [] :=
  fun _ h => nomatch h

theorem isLine_cons {c : Char} {line : List Char} :
    IsLine (c :: line) ↔ isLineEnd c = false ∧ IsLine line :=
  List.forall_mem_cons

theorem forall_mem_consFirst {c : Char} (hc : isLineEnd c = false) {lines : List (List Char)}
    (h : ∀ line ∈ lines, IsLine line) : ∀ line ∈ consFirst c lines, IsLine line := by
  cases lines with
  | nil =>
    intro line hl
    obtain rfl := List.mem_singleton.mp hl
    exact isLine_cons.mpr ⟨hc, isLine_nil⟩
  | cons first lines =>
    obtain ⟨hf, hl⟩ := List.forall_mem_cons.mp h
    exact List.forall_mem_cons.mpr ⟨isLine_cons.mpr ⟨hc, hf⟩, hl⟩

theorem isLine_of_mem_splitLines (s : List Char) : ∀ line ∈ splitLines s, IsLine line := by
  unfold splitLines
  fun_induction cutLines isLineEnd s with
  | case1 => exact fun _ h => nomatch h
  | case2 rest h ih => exact List.forall_mem_cons.mpr ⟨isLine_nil, ih⟩
  | case3 rest h => exact absurd rfl h
  | case4 c rest _ h ih => exact List.forall_mem_cons.mpr ⟨isLine_nil, ih⟩
  | case5 c rest _ h ih => exact forall_mem_consFirst (Bool.not_eq_true _ ▸ h) ih

section

variable {ends : Char → Bool} (hends : ends '\r' = true)
include hends

theorem cutLines_cons {c : Char} (hc : ends c = false) (s : List Char) :
    cutLines ends (c :: s) = consFirst c (cutLines ends s) := by
  have hr : c ≠ '\r' := fun h => Bool.false_ne_true ((h ▸ hc).symm.trans hends)
  rw [cutLines]
  · exact if_neg (Bool.eq_false_iff.mp hc)
  · exact fun rest h => absurd h hr

/-- A line goes on up to the first line end behind it. -/
theorem cutLines_append_of_cons {line : List Char} (h : ∀ c ∈ line, ends c = false)
    {s first : List Char} {lines : List (List Char)} (hs : cutLines ends s = first :: lines) :
    cutLines ends (line ++ s) = (line ++ first) :: lines := by
  induction line with
  | nil => exact hs
  | cons c line ih =>
    obtain ⟨hc, hl⟩ := List.forall_mem_cons.mp h
    rw [List.cons_append, cutLines_cons hends hc, ih hl]
    rfl

end

/-- A line end cuts, unless it is the first half of one. -/
theorem cutLines_lineEnd {ends : Char → Bool} {c : Char} (hc : ends c = true) {s : List Char}
    (hpair : c = '\r' → s.head? ≠ some '\n') : cutLines ends (c :: s) = [] :: cutLines ends s := by
  rw [cutLines, if_pos hc]
  rintro rest hr rfl
  exact hpair hr rfl

theorem splitLines_cons {c : Char} (hc : isLineEnd c = false) (s : List Char) :
    splitLines (c :: s) = consFirst c (splitLines s) :=
  cutLines_cons rfl hc s

theorem splitLines_append_of_cons {line : List Char} (h : IsLine line) {s first : List Char}
    {lines : List (List Char)} (hs : splitLines s = first :: lines) :
    splitLines (line ++ s) = (line ++ first) :: lines :=
  cutLines_append_of_cons rfl h hs

theorem splitLines_append {line : List Char} (h : IsLine line) (s : List Char) :
    splitLines (line ++ '\n' :: s) = line :: splitLines s := by
  have hs : splitLines ('\n' :: s) = [] :: splitLines s := rfl
  rw [splitLines_append_of_cons h hs, List.append_nil]

/-- A line end cuts: what is behind it falls into its own lines, but for the empty one that the end
of a line makes of its second character. -/
theorem splitLines_lineEnd {c : Char} (hc : isLineEnd c = true) (s : List Char) :
    ∃ lines, splitLines (c :: s) = [] :: lines ∧
      (splitLines s = lines ∨ splitLines s = [] :: lines) := by
  by_cases hpair : c = '\r' ∧ ∃ rest, s = '\n' :: rest
  · obtain ⟨rfl, rest, rfl⟩ := hpair
    exact ⟨splitLines rest, rfl, .inr rfl⟩
  · refine ⟨splitLines s, cutLines_lineEnd hc fun hr hs => hpair ⟨hr, ?_⟩, .inl rfl⟩
    exact List.head?_eq_some_iff.mp hs

theorem joinLines_cons (line : List Char) (lines : List (List Char)) :
    joinLines (line :: lines) = line ++ '\n' :: joinLines lines := by
  rw [joinLines, List.flatMap_cons, List.append_assoc]
  rfl

theorem splitLines_joinLines {lines : List (List Char)} (h : ∀ line ∈ lines, IsLine line) :
    splitLines (joinLines lines) = lines := by
  induction lines with
  | nil => rfl
  | cons line lines ih =>
    obtain ⟨hl, hs⟩ := List.forall_mem_cons.mp h
    rw [joinLines_cons, splitLines_append hl, ih hs]

theorem not_mem_joinLines {lines : List (List Char)} (h : ∀ line ∈ lines, IsLine line) :
    '\r' ∉ joinLines lines := by
  intro hm
  obtain ⟨line, hl, hc⟩ := List.mem_flatMap.mp hm
  rcases List.mem_append.mp hc with hc | hc
  · exact absurd (h line hl '\r' hc) (by decide)
  · exact absurd hc (by decide)

end HdlLint.Text

namespace HdlLint.FileSystem

theorem newlines_cons {c : Char} (hc : c ≠ '\r') (s : List Char) :
    newlines (c :: s) = c :: newlines s := by
  rw [newlines]
  · exact fun _ h => absurd h hc
  · exact hc

theorem newlines_append {line : List Char} (h : '\r' ∉ line) (s : List Char) :
    newlines (line ++ s) = line ++ newlines s := by
  induction line with
  | nil => rfl
  | cons c line ih =>
    rw [List.mem_cons, not_or] at h
    rw [List.cons_append, newlines_cons (Ne.symm h.1), ih h.2, List.cons_append]

theorem newlines_of_not_mem {s : List Char} (h : '\r' ∉ s) : newlines s = s := by
  rw [← List.append_nil s, newlines_append h, newlines]

/-- Reading a text file leaves its lines as they are. -/
theorem splitLines_newlines (s : List Char) : Text.splitLines (newlines s) = Text.splitLines s := by
  fun_induction newlines s with
  | case1 rest ih => exact congrArg (List.cons []) ih
  | case2 rest hrest ih =>
    refine (congrArg (List.cons []) ih).trans (Text.cutLines_lineEnd rfl fun _ hs => ?_).symm
    obtain ⟨rest', rfl⟩ := List.head?_eq_some_iff.mp hs
    exact hrest rest' rfl
  | case3 c rest hpair hreturn ih =>
    cases hc : Text.isLineEnd c with
    | false => rw [Text.splitLines_cons hc, Text.splitLines_cons hc, ih]
    | true =>
      have hcut : ∀ s, Text.splitLines (c :: s) = [] :: Text.splitLines s :=
        fun s => Text.cutLines_lineEnd hc fun hr => absurd hr hreturn
      rw [hcut, hcut, ih]
  | case4 => rfl

end HdlLint.FileSystem
