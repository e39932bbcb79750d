import HdlLint.Proofs.Text.Lines

/-!
# Lines of source text

What `sourceLines` makes of a text, without its steps: `FallsInto` puts the text together from lines
without `\n` and `\r`, each one with its end, and a last line that need not have one. There is one
way only to do so (`fallsInto_iff`). Joined by single line feeds the lines give the text as it is read
from a text file, but for an end of the last line (`FallsInto.newlines_eq`).
-/

namespace HdlLint.Text

/-- Whether a line is one of source text: no character in it ends a line. -/
def IsSourceLine (line : List Char) : Prop :=
  '\n' ∉ line ∧ '\r' ∉ line

/-- How a line ends in front of the rest of a text. A carriage return and the line feed behind it are
one end. -/
inductive IsEnd : (ending rest : List Char) → Prop
  | lineFeed (rest : List Char) : IsEnd ['\n'] rest
  | pair (rest : List Char) : IsEnd ['\r', '\n'] rest
  | carriageReturn {rest : List Char} (hlone : rest.head? ≠ some '\n') : IsEnd ['\r'] rest

/-- How a text falls into lines. What stands behind the last end is a line if there is anything. -/
inductive FallsInto : List Char → List (List Char) → Prop
  | nil : FallsInto [] []
  | last {line : List Char} (hne : line ≠ []) (hline : IsSourceLine line) : FallsInto line [line]
  | line {line ending rest : List Char} {lines : List (List Char)} (hline : IsSourceLine line)
      (hend : IsEnd ending rest) (h : FallsInto rest lines) :
      FallsInto (line ++ (ending ++ rest)) (line :: lines)

/-! ## Lines and their ends -/

theorem isSourceLineEnd_iff {c : Char} : isSourceLineEnd c = true ↔ c = '\n' ∨ c = '\r' := by
  simp [isSourceLineEnd]

theorem isSourceLine_nil : IsSourceLine [] :=
  ⟨List.not_mem_nil, List.not_mem_nil⟩

theorem isSourceLine_iff {line : List Char} :
    IsSourceLine line ↔ ∀ c ∈ line, isSourceLineEnd c = false := by
  constructor
  · rintro ⟨hfeed, hreturn⟩ c hc
    rw [Bool.eq_false_iff, ne_eq, isSourceLineEnd_iff]
    rintro (rfl | rfl)
    · exact hfeed hc
    · exact hreturn hc
  · exact fun h => ⟨fun hc => Bool.noConfusion (h _ hc), fun hc => Bool.noConfusion (h _ hc)⟩

theorem isSourceLine_cons {c : Char} {line : List Char} :
    IsSourceLine (c :: line) ↔ isSourceLineEnd c = false ∧ IsSourceLine line := by
  rw [isSourceLine_iff, isSourceLine_iff, List.forall_mem_cons]

theorem IsEnd.sourceLines_append {ending rest : List Char} (h : IsEnd ending rest) :
    sourceLines (ending ++ rest) = [] :: sourceLines rest := by
  cases h with
  | lineFeed => rfl
  | pair => rfl
  | carriageReturn hlone => exact cutLines_lineEnd rfl fun _ => hlone

/-! ## One way to cut -/

/-- One more character belongs to the first line. -/
theorem FallsInto.cons {c : Char} (hc : isSourceLineEnd c = false) {text : List Char}
    {lines : List (List Char)} (h : FallsInto text lines) :
    FallsInto (c :: text) (consFirst c lines) := by
  cases h with
  | nil => exact .last (List.cons_ne_nil c []) (isSourceLine_cons.mpr ⟨hc, isSourceLine_nil⟩)
  | last _ hline => exact .last (List.cons_ne_nil c _) (isSourceLine_cons.mpr ⟨hc, hline⟩)
  | line hline hend h => exact .line (isSourceLine_cons.mpr ⟨hc, hline⟩) hend h

theorem fallsInto_sourceLines (text : List Char) : FallsInto text (sourceLines text) := by
  unfold sourceLines
  fun_induction cutLines isSourceLineEnd text with
  | case1 => exact .nil
  | case2 rest _ ih => exact .line isSourceLine_nil (.pair rest) ih
  | case3 _ h => exact absurd rfl h
  | case4 c rest hpair hc ih =>
    have hend : IsEnd [c] rest := by
      rcases isSourceLineEnd_iff.mp hc with rfl | rfl
      · exact .lineFeed rest
      · refine .carriageReturn fun hs => ?_
        obtain ⟨rest', rfl⟩ := List.head?_eq_some_iff.mp hs
        exact hpair rest' rfl rfl
    exact .line isSourceLine_nil hend ih
  | case5 c rest _ hc ih => exact ih.cons (Bool.eq_false_iff.mpr hc)

theorem FallsInto.eq_sourceLines {text : List Char} {lines : List (List Char)}
    (h : FallsInto text lines) : lines = sourceLines text := by
  induction h with
  | nil => rfl
  | @last line hne hline =>
    obtain ⟨front, c, rfl⟩ := (List.eq_nil_or_concat line).resolve_left hne
    rw [List.concat_eq_append] at hline ⊢
    rw [isSourceLine_iff, List.forall_mem_append, List.forall_mem_singleton] at hline
    have hc : sourceLines [c] = [[c]] := cutLines_cons rfl hline.2 []
    exact (cutLines_append_of_cons rfl hline.1 hc).symm
  | line hline hend _ ih =>
    rw [sourceLines, cutLines_append_of_cons rfl (isSourceLine_iff.mp hline) hend.sourceLines_append,
      List.append_nil, ih]

theorem fallsInto_iff {text : List Char} {lines : List (List Char)} :
    FallsInto text lines ↔ lines = sourceLines text :=
  ⟨FallsInto.eq_sourceLines, fun h => h ▸ fallsInto_sourceLines text⟩

theorem FallsInto.isSourceLine {text : List Char} {lines : List (List Char)}
    (h : FallsInto text lines) : ∀ line ∈ lines, IsSourceLine line := by
  induction h with
  | nil => exact fun _ h => nomatch h
  | last _ hline => exact List.forall_mem_singleton.mpr hline
  | line hline _ _ ih => exact List.forall_mem_cons.mpr ⟨hline, ih⟩

/-! ## Lines joined again -/

/-- Whether the last character of a text ends a line. -/
def endsLine (text : List Char) : Bool :=
  text.getLast?.any isSourceLineEnd

theorem IsSourceLine.endsLine_eq {line : List Char} (h : IsSourceLine line) :
    endsLine line = false := by
  rw [endsLine]
  cases hlast : line.getLast? with
  | none => rfl
  | some c => exact isSourceLine_iff.mp h c (List.mem_of_getLast? hlast)

theorem IsEnd.endsLine_append {ending rest : List Char} (h : IsEnd ending rest) (line : List Char) :
    endsLine (line ++ (ending ++ rest)) = (rest.isEmpty || endsLine rest) := by
  rw [← List.append_assoc]
  cases rest with
  | nil => cases h <;> simp [endsLine, isSourceLineEnd]
  | cons c rest => simp [endsLine, List.getLast?_append, List.getLast?_cons]

theorem IsEnd.newlines_append {ending rest : List Char} (h : IsEnd ending rest) :
    FileSystem.newlines (ending ++ rest) = '\n' :: FileSystem.newlines rest := by
  cases h with
  | lineFeed => rfl
  | pair => rfl
  | carriageReturn hlone =>
    rw [List.singleton_append, FileSystem.newlines]
    rintro rest' rfl
    exact hlone rfl

/-- Only the empty text has no lines. -/
theorem FallsInto.eq_nil_iff {text : List Char} {lines : List (List Char)} (h : FallsInto text lines) :
    lines = [] ↔ text = [] := by
  cases h with
  | nil => simp
  | last hne => simp [hne]
  | line _ hend => cases hend <;> simp

/-- The lines joined by single line feeds are the text as it is read from a text file, but for an end
of the last line. -/
theorem FallsInto.newlines_eq {text : List Char} {lines : List (List Char)} (h : FallsInto text lines) :
    FileSystem.newlines text =
      ['\n'].intercalate lines ++ if endsLine text then ['\n'] else [] := by
  induction h with
  | nil => rfl
  | last _ hline =>
    rw [FileSystem.newlines_of_not_mem hline.2, hline.endsLine_eq, List.intercalate_singleton,
      if_neg Bool.false_ne_true, List.append_nil]
  | @line line ending rest lines hline hend h ih =>
    rw [FileSystem.newlines_append hline.2, hend.newlines_append, ih, hend.endsLine_append]
    cases lines with
    | nil =>
      obtain rfl := h.eq_nil_iff.mp rfl
      rw [List.intercalate_singleton]
      rfl
    | cons first lines =>
      have hrest : rest.isEmpty = false :=
        List.isEmpty_eq_false_iff.mpr fun hnil => List.cons_ne_nil _ _ (h.eq_nil_iff.mpr hnil)
      rw [hrest, Bool.false_or, List.intercalate_cons_cons, List.append_assoc, List.append_assoc]
      rfl

end HdlLint.Text
