import HdlLint.Program
import HdlLint.Proofs.Report.Snippet
import HdlLint.Verilog.Reader

/-!
# What carets mark

Places in source text count bytes, and a snippet counts characters. So the carets that mark a part of
a line start under it exactly if all that stands in front of it are characters of one byte; to mark
just this part, its characters have to be of one byte too, unless it ends the line
(`brokenLines_marks_iff`).
-/

namespace HdlLint

namespace Text

/-- The number of bytes of a text. -/
def byteCount : List Char → Nat
  | [] => 0
  | c :: cs => c.utf8Size + byteCount cs

theorem byteCount_cons (c : Char) (s : List Char) : byteCount (c :: s) = c.utf8Size + byteCount s :=
  rfl

theorem byteCount_append (s t : List Char) : byteCount (s ++ t) = byteCount s + byteCount t := by
  induction s with
  | nil => exact (Nat.zero_add _).symm
  | cons c s ih => rw [List.cons_append, byteCount_cons, byteCount_cons, ih, Nat.add_assoc]

theorem length_le_byteCount (s : List Char) : s.length ≤ byteCount s := by
  induction s with
  | nil => exact Nat.le_refl 0
  | cons c s ih =>
    have hc := c.utf8Size_pos
    rw [List.length_cons, byteCount_cons]
    omega

theorem byteCount_eq_length_iff {s : List Char} :
    byteCount s = s.length ↔ ∀ c ∈ s, c.utf8Size = 1 := by
  induction s with
  | nil => exact iff_of_true rfl (List.forall_mem_nil _)
  | cons c s ih =>
    have hc := c.utf8Size_pos
    have hs := length_le_byteCount s
    rw [byteCount_cons, List.length_cons, List.forall_mem_cons, ← ih]
    omega

end Text

open Text (byteCount)

/-- The place behind some text of a line that starts at an offset. -/
def Location.behind (included : Option String) (offset line : Int) (front : List Char) : Location :=
  .text included (offset + byteCount front) line (byteCount front + 1)

/-- What a message says about a part of a line. -/
theorem Range.span_behind (path : Path) (included : Option String) (offset line : Int)
    (before : List Char) {part : List Char} (hpart : part ≠ []) :
    Range.span path ⟨.behind included offset line before, .behind included offset line (before ++ part)⟩ =
      ⟨(Location.behind included offset line before).pathOr path, line, byteCount before + 1,
        byteCount part⟩ := by
  have hbytes := Text.length_le_byteCount part
  have hlength := List.length_pos_iff.mpr hpart
  have hmark : max ((offset + byteCount (before ++ part)) - (offset + byteCount before)) 1 =
      (byteCount part : Int) := by
    rw [Text.byteCount_append]
    omega
  rw [← hmark]
  rfl

namespace Snippet

variable {s : Snippet} {before part after : List Char}

/-- The blanks in front of a mark end where the marked part starts exactly if nothing in front of
the part takes more than a byte. -/
theorem length_indent_eq_iff (hcolumn : s.column = byteCount before + 1) (hpart : part ≠ []) :
    (s.indent (before ++ (part ++ after))).length = before.length ↔ ∀ c ∈ before, c.utf8Size = 1 := by
  have hlength := List.length_pos_iff.mpr hpart
  have hbytes := Text.length_le_byteCount before
  rw [length_indent (by omega), ← Text.byteCount_eq_length_iff, hcolumn, List.length_append,
    List.length_append]
  omega

/-- A mark that starts where the marked part does is as long as it exactly if nothing in the part
takes more than a byte, or nothing follows it. -/
theorem width_eq_iff (hcolumn : s.column = byteCount before + 1) (hwidth : s.length = byteCount part)
    (hpart : part ≠ []) (hbefore : ∀ c ∈ before, c.utf8Size = 1) :
    s.width (before ++ (part ++ after)) = part.length ↔
      (∀ c ∈ part, c.utf8Size = 1) ∨ after = [] := by
  have hlength := List.length_pos_iff.mpr hpart
  have hbytes := Text.length_le_byteCount part
  have hfront := Text.byteCount_eq_length_iff.mpr hbefore
  rw [width_eq (by omega), ← Text.byteCount_eq_length_iff, ← List.length_eq_zero_iff, hcolumn, hwidth,
    List.length_append, List.length_append]
  omega

end Snippet

namespace Report

variable {before part after : List Char}

/-- The lines about a rule that is broken in a part of a line. As the place of the part counts bytes,
the first caret stands under its first character exactly if all characters in front of it take one
byte, and the carets mark just the part exactly if its own characters do so too or nothing follows
it. -/
theorem brokenLines_marks_iff {fs : FileSystem} {f : Failed} {path : Path} {included : Option String}
    {offset line : Int} (hpart : part ≠ [])
    (hspan : (⟨f.path, f.line, f.column, f.length⟩ : Span) = Range.span path
      ⟨.behind included offset line before, .behind included offset line (before ++ part)⟩)
    (hsource : fs.sourceLine f.path f.line = some (String.ofList (before ++ (part ++ after)))) :
    ∃ (gutter indent : List Char) (width : Nat),
      gutter = List.replicate (toString f.line).length ' ' ∧ (∀ c ∈ indent, c = ' ' ∨ c = '\t') ∧
      brokenLines fs false f =
        [s!"Fail: {f.name}", String.ofList gutter ++ s!"--> {f.path}:{f.line}:{f.column}",
          String.ofList gutter ++ " |", s!"{f.line} | " ++ String.ofList (before ++ (part ++ after)),
          String.ofList (gutter ++ " | ".toList ++ indent ++ List.replicate width '^') ++ " " ++
            s!"hint  : {f.hint}",
          String.ofList (gutter ++ " | ".toList ++ indent ++ List.replicate width ' ') ++ " " ++
            s!"reason: {f.reason}",
          ""] ∧
      indent.length = min (byteCount before) (before ++ (part ++ after)).length ∧
      width = max 1 (min (byteCount part) ((before ++ (part ++ after)).length - byteCount before)) ∧
      (indent.length = before.length ↔ ∀ c ∈ before, c.utf8Size = 1) ∧
      (indent.length = before.length ∧ width = part.length ↔
        (∀ c ∈ before, c.utf8Size = 1) ∧ ((∀ c ∈ part, c.utf8Size = 1) ∨ after = [])) := by
  obtain ⟨-, -, hcolumn, hwidth⟩ := Span.mk.inj (hspan.trans (Range.span_behind _ _ _ _ _ hpart))
  let s : Snippet := ⟨f.path, f.line, f.column, f.length⟩
  have hone : 1 ≤ s.column := by
    rw [show s.column = byteCount before + 1 from hcolumn]
    omega
  have hindent : (s.indent (before ++ (part ++ after))).length = before.length ↔
      ∀ c ∈ before, c.utf8Size = 1 := Snippet.length_indent_eq_iff hcolumn hpart
  refine ⟨s.gutter, s.indent (before ++ (part ++ after)), s.width (before ++ (part ++ after)), rfl,
    fun c => Snippet.eq_of_mem_blanksLike, ?_, ?_, ?_, hindent, ?_⟩
  · have hlines := Snippet.snippet_eq (s := s) hsource s!"hint  : {f.hint}" [s!"reason: {f.reason}"]
    rw [String.toList_ofList] at hlines
    exact congrArg (s!"Fail: {f.name}" :: ·) hlines
  · rw [Snippet.length_indent hone, show s.column = byteCount before + 1 from hcolumn]
    omega
  · rw [Snippet.width_eq hone, show s.column = byteCount before + 1 from hcolumn,
      show s.length = byteCount part from hwidth]
    omega
  · rw [hindent]
    exact and_congr_right fun hbefore => Snippet.width_eq_iff hcolumn hwidth hpart hbefore

/-- A file with a region that breaks a rule. -/
def regionSample : FileSystem :=
  { current := ["w"]
    entries := [(["w", "a.sv"], .file "module m; generate endgenerate endmodule\n".toUTF8.toList)] }

/-- The report on the region. -/
def regionFailed : Failed :=
  ⟨"generate_keyword", "omit it", "no use", "a.sv", 1, 11, 20⟩

/-- Behind ten characters of one byte the region is marked by as many carets as it has characters. -/
theorem brokenLines_marks_iff_region :
    let before := "module m; ".toList
    let part := "generate endgenerate".toList
    (⟨regionFailed.path, regionFailed.line, regionFailed.column, regionFailed.length⟩ : Span) =
      Range.span ⟨.relative, ["a.sv"]⟩ ⟨.behind none 0 1 before, .behind none 0 1 (before ++ part)⟩ ∧
    ∃ (indent : List Char) (width : Nat),
      (brokenLines regionSample false regionFailed)[4]? =
        some (String.ofList (" ".toList ++ " | ".toList ++ indent ++ List.replicate width '^') ++ " " ++
          s!"hint  : {regionFailed.hint}") ∧
      indent.length = before.length ∧ width = part.length := by
  intro before part
  have hspan : (⟨regionFailed.path, regionFailed.line, regionFailed.column, regionFailed.length⟩ : Span) =
      Range.span ⟨.relative, ["a.sv"]⟩
        ⟨.behind none 0 1 before, .behind none 0 1 (before ++ part)⟩ := by decide +kernel
  have hsource : regionSample.sourceLine regionFailed.path regionFailed.line =
      some (String.ofList (before ++ (part ++ " endmodule".toList))) := by decide +kernel
  obtain ⟨gutter, indent, width, rfl, -, hlines, -, -, -, hmarks⟩ :=
    brokenLines_marks_iff (by decide) hspan hsource
  have hbefore := Text.byteCount_eq_length_iff.mp (by decide +kernel : byteCount before = before.length)
  have hpart := Text.byteCount_eq_length_iff.mp (by decide +kernel : byteCount part = part.length)
  refine ⟨hspan, indent, width, ?_, hmarks.mpr ⟨hbefore, .inl hpart⟩⟩
  rw [hlines]
  rfl

end Report

namespace Program

/-- A comment with a character of two bytes in front of a region that breaks a rule. -/
def accentHost : Host where
  files :=
    { current := ["w"]
      entries := [(["w", "a.sv"],
        .file "module m; /* é */ generate endgenerate endmodule\n".toUTF8.toList)] }
  environment := ⟨[]⟩
  plugins := ⟨[]⟩
  parser := Verilog.reader

/-- There the carets start a character too late: behind nineteen blanks, where eighteen characters
stand in front of the region. -/
theorem start_marks_late :
    "module m; /* é */ ".length = 18 ∧
    (start accentHost ["a.sv"]).stdout =
      "Fail: generate_keyword\n --> a.sv:1:20\n  |\n" ++
      "1 | module m; /* é */ generate endgenerate endmodule\n" ++
      "  | " ++ String.ofList (List.replicate 19 ' ') ++
        "^^^^^^^^^^^^^^^^^^^^ hint  : `generate`/`endgenerate` must be omitted\n" ++
      "  | " ++ String.ofList (List.replicate 19 ' ') ++
        "                     reason: \n\n" := by
  decide +kernel

end Program

end HdlLint
