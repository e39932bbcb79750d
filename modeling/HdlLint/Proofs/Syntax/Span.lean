import HdlLint.Program
import HdlLint.Verilog.Reader

/-!
# What is told about a range

A place is a site in a file, within any number of expansions of macros (`Location.exists_within`). The
path, the line and the column that are told about a range are those of the site of its start. The
length is one where the start lies in an expansion, and else the difference of two offsets, whatever
texts they belong to: `Range.span_within` says which ranges get a length that is none of a piece of a
file.
-/

namespace HdlLint

/-- A place in a file: in an included file of some name, or in the file that was read. -/
structure Site where
  included : Option String
  offset : Int
  line : Int
  column : Int

namespace Site

/-- The place that stems from a site through usages of macros, each one in the expansion of the next,
given the offsets in the expansions from the innermost one on. -/
def within (s : Site) : (offsets : List Int) → Location
  | [] => .text s.included s.offset s.line s.column
  | offset :: offsets => .expansion offset (s.within offsets)

variable (s : Site) (offsets : List Int)

theorem outermost_within : (s.within offsets).outermost = s.within [] := by
  induction offsets with
  | nil => rfl
  | cons _ _ ih => exact ih

theorem offset_within : (s.within offsets).offset = offsets.headD s.offset := by
  cases offsets <;> rfl

theorem pathOr_within_of_named {name : String} (h : s.included = some name) (hne : name ≠ "")
    (fallback : Path) : (s.within []).pathOr fallback = name := by
  simp [within, Location.pathOr, Location.included?, h, hne]

theorem pathOr_within_of_unnamed (h : s.included = none ∨ s.included = some "") (fallback : Path) :
    (s.within []).pathOr fallback = fallback.toString := by
  rcases h with h | h <;> simp [within, Location.pathOr, Location.included?, h]

end Site

/-- Every place stems from a site. -/
theorem Location.exists_within (l : Location) :
    ∃ (s : Site) (offsets : List Int), l = s.within offsets := by
  induction l with
  | text included offset line column => exact ⟨⟨included, offset, line, column⟩, [], rfl⟩
  | expansion offset usage ih =>
    obtain ⟨s, offsets, rfl⟩ := ih
    exact ⟨s, offset :: offsets, rfl⟩

namespace Range

/-- Of the end of a range nothing but its offset counts. -/
theorem span_eq (fallback : Path) (start stop : Site) (offsets offsets' : List Int) :
    span fallback ⟨start.within offsets, stop.within offsets'⟩ =
      ⟨(start.within []).pathOr fallback, start.line, start.column,
        if offsets = [] then max (offsets'.headD stop.offset - start.offset) 1 else 1⟩ := by
  cases offsets with
  | nil =>
    rw [if_pos rfl, ← stop.offset_within offsets']
    rfl
  | cons offset offsets =>
    have hexpansion : (start.within (offset :: offsets)).isExpansion = true := rfl
    rw [if_neg (List.cons_ne_nil offset offsets), span, if_pos hexpansion]
    simp only [start.outermost_within]
    rfl

/-- Of any range, whatever expansions its start and its end lie in, the site of the start is told: the
name of the included file that holds it, if it has one, and else the given path, with the line and the
column. The length is at least one. It is one where the start lies in an expansion, and else the
difference of the offsets of the end and of the start, if that is more. Of a range in one file this is
the length; but a length of more than one is told as well of a range that starts in a file and ends in
another one or in an expansion, as soon as the end has the greater offset there. -/
theorem span_within (fallback : Path) (start stop : Site) (offsets offsets' : List Int) :
    (∀ l : Location, ∃ (s : Site) (offsets : List Int), l = s.within offsets) ∧
    let told := span fallback ⟨start.within offsets, stop.within offsets'⟩
    (∀ name, start.included = some name → name ≠ "" → told.path = name) ∧
    (start.included = none ∨ start.included = some "" → told.path = fallback.toString) ∧
    told.line = start.line ∧ told.column = start.column ∧ 1 ≤ told.length ∧
    (offsets ≠ [] → told.length = 1) ∧
    (1 < told.length → told.length = offsets'.headD stop.offset - start.offset) ∧
    (offsets = [] ∧ offsets' = [] ∧ stop.included = start.included →
      told.length = max (stop.offset - start.offset) 1) ∧
    (1 < told.length ∧ ¬(offsets = [] ∧ offsets' = [] ∧ stop.included = start.included) ↔
      offsets = [] ∧ (offsets' ≠ [] ∨ stop.included ≠ start.included) ∧
        start.offset + 1 < offsets'.headD stop.offset) := by
  refine ⟨Location.exists_within, ?_⟩
  rw [span_eq]
  refine ⟨fun name hname hne => start.pathOr_within_of_named hname hne fallback,
    fun hnone => start.pathOr_within_of_unnamed hnone fallback, rfl, rfl, ?_, fun hne => if_neg hne,
    ?_, ?_, ?_⟩
  · dsimp only
    split <;> omega
  · dsimp only
    split <;> omega
  · rintro ⟨rfl, rfl, -⟩
    rfl
  · cases offsets with
    | cons offset offsets => simp
    | nil =>
      have hlength : 1 < max (offsets'.headD stop.offset - start.offset) 1 ↔
          start.offset + 1 < offsets'.headD stop.offset := by omega
      have hfile : ¬(offsets' = [] ∧ stop.included = start.included) ↔
          offsets' ≠ [] ∨ stop.included ≠ start.included := Classical.not_and_iff_not_or_not
      simp only [if_true, true_and, hlength, hfile]
      exact and_comm

end Range

namespace Program

/-- A file with a region that begins in it and ends in an included file. -/
def splitHost : Host where
  files :=
    { current := ["w"]
      entries := [
        (["w", "a.sv"], .file "module m; generate\n`include \"b.svh\"\nendmodule\n".toUTF8.toList),
        (["w", "b.svh"], .file "// the region ends here\nendgenerate\n".toUTF8.toList)] }
  environment := ⟨[]⟩
  plugins := ⟨[]⟩
  parser := Verilog.reader

/-- The region starts at offset 10 of the file and ends at offset 35 of the included one. It is told
to be 25 bytes long, and the carets go to the end of the line. -/
theorem span_of_split_region :
    Range.span ⟨.relative, ["a.sv"]⟩ ⟨.text none 10 1 11, .text (some "b.svh") 35 2 12⟩ =
      ⟨"a.sv", 1, 11, 25⟩ ∧
    (start splitHost ["a.sv"]).stdout =
      "Fail: generate_keyword\n --> a.sv:1:11\n  |\n1 | module m; generate\n" ++
      "  |           ^^^^^^^^ hint  : `generate`/`endgenerate` must be omitted\n" ++
      "  |                    reason: \n\n" := by
  decide +kernel

end Program

end HdlLint
