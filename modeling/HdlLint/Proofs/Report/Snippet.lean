import HdlLint.Report

/-!
# Snippets on the screen

How the lines of a snippet stand to each other (`lines_geometry`): the blanks in front of a mark have
a tab wherever the source line has one, so on the screen the mark starts where the place does
(`screenColumn_indent`), wherever the tab stops are.
-/

namespace HdlLint.Snippet

/-! ## Places on the screen -/

/-- The place behind a character on a screen with tab stops at a distance. -/
def advance (stop column : Nat) (c : Char) : Nat :=
  if c = '\t' then (column / stop + 1) * stop else column + 1

/-- The place behind a text on a screen with tab stops at a distance. -/
def screenColumn (stop : Nat) (s : List Char) : Nat :=
  s.foldl (advance stop) 0

/-- Texts with tabs in the same places take the same room. -/
theorem foldl_advance_congr {s t : List Char} (stop column : Nat)
    (h : s.map (· == '\t') = t.map (· == '\t')) :
    s.foldl (advance stop) column = t.foldl (advance stop) column := by
  induction s generalizing t column with
  | nil => rw [List.map_eq_nil_iff.mp h.symm]
  | cons c s ih =>
    cases t with
    | nil => cases h
    | cons d t =>
      rw [List.map_cons, List.map_cons, List.cons.injEq] at h
      have hadvance : advance stop column c = advance stop column d := by
        rw [advance, advance]
        by_cases hc : c = '\t'
        · have hd : d = '\t' := by rw [← beq_iff_eq, ← h.1, beq_iff_eq, hc]
          rw [if_pos hc, if_pos hd]
        · have hd : ¬d = '\t' := by rw [← beq_iff_eq, ← h.1, beq_iff_eq]; exact hc
          rw [if_neg hc, if_neg hd]
      rw [List.foldl_cons, List.foldl_cons, hadvance]
      exact ih _ h.2

theorem screenColumn_congr {s t : List Char} (stop : Nat)
    (h : s.map (· == '\t') = t.map (· == '\t')) : screenColumn stop s = screenColumn stop t :=
  foldl_advance_congr stop 0 h

theorem map_isTab_of_not_mem {s : List Char} (h : '\t' ∉ s) :
    s.map (· == '\t') = List.replicate s.length false := by
  rw [List.eq_replicate_iff]
  refine ⟨List.length_map _, fun b hb => ?_⟩
  obtain ⟨c, hc, rfl⟩ := List.mem_map.mp hb
  exact beq_eq_false_iff_ne.mpr fun he => h (he ▸ hc)

theorem map_isTab_blanksLike (s : List Char) :
    (blanksLike s).map (· == '\t') = s.map (· == '\t') := by
  rw [blanksLike, List.map_map]
  refine List.map_congr_left fun c _ => ?_
  by_cases hc : c = '\t'
  · simp [hc]
  · simp [hc]

theorem eq_of_mem_blanksLike {s : List Char} {c : Char} (h : c ∈ blanksLike s) : c = ' ' ∨ c = '\t' := by
  obtain ⟨d, -, rfl⟩ := List.mem_map.mp h
  by_cases hd : d = '\t'
  · exact .inr (if_pos hd)
  · exact .inl (if_neg hd)

/-! ## Line numbers -/

theorem not_mem_toDigits {c : Char} (hc : c.isDigit = false) (n : Nat) : c ∉ Nat.toDigits 10 n :=
  fun h => Bool.noConfusion (hc.symm.trans (Nat.isDigit_of_mem_toDigits (by decide) (by decide) h))

theorem tab_not_mem_toString (n : Int) : '\t' ∉ (toString n).toList := by
  cases n with
  | ofNat m =>
    rw [Int.toString_eq_repr, Int.repr, Nat.toList_repr]
    exact not_mem_toDigits rfl m
  | negSucc m =>
    rw [Int.toString_eq_repr, Int.repr, String.toList_append, Nat.toList_repr, List.mem_append, not_or]
    exact ⟨by decide, not_mem_toDigits rfl _⟩

/-! ## The lines of a snippet -/

variable {s : Snippet} {text : List Char}

theorem before_eq (h : 1 ≤ s.column) (text : List Char) :
    s.before text = text.take (s.column - 1).toNat := by
  rw [before, upTo, if_neg (by omega)]

theorem length_indent (h : 1 ≤ s.column) (text : List Char) :
    (s.indent text).length = min (s.column - 1).toNat text.length := by
  rw [indent, blanksLike, List.length_map, before_eq h, List.length_take]

theorem getElem?_indent (h : 1 ≤ s.column) (text : List Char) {i : Nat}
    (hi : i < (s.indent text).length) :
    (s.indent text)[i]? = some (if text[i]? = some '\t' then '\t' else ' ') := by
  rw [length_indent h] at hi
  rw [indent, blanksLike, before_eq h, List.getElem?_map, List.getElem?_take_of_lt (by omega),
    List.getElem?_eq_getElem (by omega)]
  simp

/-- What stands in front of the source line, or in front of the blanks of a note. -/
theorem map_isTab_gutter (s : Snippet) :
    (s.gutter ++ " | ".toList).map (· == '\t') = (s!"{s.line} | ").toList.map (· == '\t') := by
  have hline : (s!"{s.line} | ").toList = (toString s.line).toList ++ " | ".toList :=
    String.toList_append
  rw [hline, List.map_append, List.map_append, map_isTab_of_not_mem (tab_not_mem_toString s.line),
    gutter, List.map_replicate, String.length_toList]
  rfl

/-- On the screen the blanks of a note end where the place starts in the source line. -/
theorem screenColumn_indent (h : 1 ≤ s.column) (text : List Char) (stop : Nat) :
    screenColumn stop (s.gutter ++ " | ".toList ++ s.indent text) =
      screenColumn stop ((s!"{s.line} | ").toList ++ text.take (s.column - 1).toNat) := by
  refine screenColumn_congr stop ?_
  rw [List.map_append, map_isTab_gutter, indent, map_isTab_blanksLike, before_eq h, ← List.map_append]

/-- The room of a mark does not depend on what it is made of. -/
theorem screenColumn_mark (front : List Char) (width stop : Nat) :
    screenColumn stop (front ++ List.replicate width ' ' ++ [' ']) =
      screenColumn stop (front ++ List.replicate width '^' ++ [' ']) := by
  refine screenColumn_congr stop ?_
  rw [List.map_append, List.map_append, List.map_append, List.map_append, List.map_replicate,
    List.map_replicate]
  rfl

/-- What is left of the line behind the blanks. -/
theorem width_eq (h : 1 ≤ s.column) (text : List Char) :
    s.width text =
      max 1 (min s.length ((text.length : Int) - min (s.column - 1).toNat text.length)).toNat := by
  rw [width, before_eq h, List.length_take]

theorem snippet_eq {fs : FileSystem} {text : String} (h : fs.sourceLine s.path s.line = some text)
    (note : String) (notes : List String) :
    Report.snippet fs s (note :: notes) =
      [String.ofList s.gutter ++ s!"--> {s.path}:{s.line}:{s.column}",
        String.ofList s.gutter ++ " |", s!"{s.line} | " ++ text,
        s.noteLine text.toList '^' note] ++ notes.map (s.noteLine text.toList ' ') ++ [""] := by
  rw [Report.snippet, h, lines, noteLines]
  rfl

/-- The lines of a snippet: where it is, a bare gutter, the source line as it stands, one line for
each note and an empty one. Every note stands behind as many blanks as there are characters in front
of the place, with tabs where the source line has them, and behind a mark, so that it starts where
all others do. In front of the first note the mark is made of carets, of which there is at least one
and which do not go beyond the end of the line; on the screen they start where the place does. -/
theorem lines_geometry {fs : FileSystem} {text : String} (note : String) (notes : List String)
    (hsource : fs.sourceLine s.path s.line = some text) (hcolumn : 1 ≤ s.column) :
    ∃ (gutter indent : List Char) (width : Nat),
      gutter = List.replicate (toString s.line).length ' ' ∧
      Report.snippet fs s (note :: notes) =
        [String.ofList gutter ++ s!"--> {s.path}:{s.line}:{s.column}",
          String.ofList gutter ++ " |", s!"{s.line} | " ++ text,
          String.ofList (gutter ++ " | ".toList ++ indent ++ List.replicate width '^') ++ " " ++ note] ++
        notes.map (fun note =>
          String.ofList (gutter ++ " | ".toList ++ indent ++ List.replicate width ' ') ++ " " ++ note) ++
        [""] ∧
      indent.length = min (s.column - 1).toNat text.length ∧
      (∀ i < indent.length, indent[i]? = some (if text.toList[i]? = some '\t' then '\t' else ' ')) ∧
      1 ≤ width ∧ (s.column ≤ text.length → indent.length + width ≤ text.length) ∧
      ((text.length : Int) < s.column → width = 1) ∧
      (1 ≤ s.length → s.column - 1 + s.length ≤ text.length → (width : Int) = s.length) ∧
      ∀ stop,
        screenColumn stop (gutter ++ " | ".toList ++ indent) =
          screenColumn stop ((s!"{s.line} | ").toList ++ text.toList.take (s.column - 1).toNat) ∧
        screenColumn stop (gutter ++ " | ".toList ++ indent ++ List.replicate width ' ' ++ [' ']) =
          screenColumn stop (gutter ++ " | ".toList ++ indent ++ List.replicate width '^' ++ [' ']) := by
  have hlength := length_indent hcolumn text.toList
  have hwidth := width_eq hcolumn text.toList
  rw [String.length_toList] at hlength hwidth
  refine ⟨s.gutter, s.indent text.toList, s.width text.toList, rfl, snippet_eq hsource note notes,
    hlength, fun i => getElem?_indent hcolumn text.toList, ?_, fun hin => ?_, fun hout => ?_,
    fun hpos hin => ?_,
    fun stop => ⟨screenColumn_indent hcolumn text.toList stop, screenColumn_mark _ _ stop⟩⟩
  · omega
  · omega
  · omega
  · omega

/-- A file whose second line starts with a tab. -/
def tabSample : FileSystem :=
  { current := ["w"]
    entries := [(["w", "a.sv"], .file "module m;\n\twire x;\n".toUTF8.toList)] }

/-- A mark of four carets behind a tab. -/
theorem lines_geometry_sample :
    tabSample.sourceLine "a.sv" 2 = some "\twire x;" ∧
    Report.snippet tabSample ⟨"a.sv", 2, 2, 4⟩ ["hint", "reason"] =
      [" --> a.sv:2:2", "  |", "2 | \twire x;", "  | \t^^^^ hint", "  | \t     reason", ""] := by
  have hsource : tabSample.sourceLine "a.sv" 2 = some "\twire x;" := by decide +kernel
  obtain ⟨gutter, indent, width, hgutter, hlines, hlength, hindent, -, -, -, hwidth, -⟩ :=
    lines_geometry (s := ⟨"a.sv", 2, 2, 4⟩) "hint" ["reason"] hsource (by decide)
  have hone : indent.length = 1 := hlength.trans (by decide)
  have htab : indent = ['\t'] := by
    obtain ⟨c, rfl⟩ := List.length_eq_one_iff.mp hone
    exact congrArg (fun c? : Option Char => c?.toList) (hindent 0 Nat.one_pos)
  have hfour : width = 4 := Int.ofNat.inj (hwidth (by decide) (by decide))
  refine ⟨hsource, ?_⟩
  rw [hlines, hgutter, htab, hfour]
  decide +kernel

end HdlLint.Snippet
