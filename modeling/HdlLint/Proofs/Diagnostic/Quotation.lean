import HdlLint.Proofs.Diagnostic.Outcome
import HdlLint.Proofs.Text.Occurs
import HdlLint.Verilog.Reader
import Mathlib.Data.List.Find

/-!
# Diagnostics that quote their source

A parser renders a diagnostic as a message with the source line below it (`Quotation`), as the
parser of SystemVerilog files does (`Quotation.ofFault_diagnostic`). Unless the code tells the kind,
markers are looked for in the line as well as in the message (`Quotation.carries_report`): a line
can change the kind of a diagnostic, and with it whether a file is read without its included files.
`Quotation.kind_line` says exactly when.
-/

namespace HdlLint

namespace Diagnostic

/-- Whether a text carries a marker of a kind. -/
def Carries (kind : ErrorKind) (text : String) : Prop :=
  ∃ m ∈ markers, m.2 = kind ∧ m.1.toList <:+: text.toList

/-- Whether a text carries a marker. -/
def Marked (text : String) : Prop :=
  ∃ kind, Carries kind text

/-- Markers are words on one line. -/
theorem markers_oneLine : ∀ m ∈ markers, m.1.toList ≠ [] ∧ '\n' ∉ m.1.toList := by
  decide

theorem markedKind?_eq_none_iff {text : String} : markedKind? text = none ↔ ¬Marked text := by
  rw [markedKind?, Option.map_eq_none_iff, List.find?_eq_none]
  constructor
  · rintro h ⟨kind, m, hm, -, hin⟩
    exact h m hm (Text.occursIn_iff.mpr hin)
  · intro h m hm hin
    exact h ⟨m.2, m, hm, rfl, Text.occursIn_iff.mp hin⟩

theorem carries_of_markedKind? {text : String} {kind : ErrorKind}
    (h : markedKind? text = some kind) : Carries kind text := by
  obtain ⟨m, hm, rfl⟩ := Option.map_eq_some_iff.mp h
  have hin := List.find?_some hm
  exact ⟨m, List.mem_of_find?_eq_some hm, rfl, Text.occursIn_iff.mp hin⟩

/-- No marker of another kind comes before those of included files. -/
theorem markedKind?_eq_includeFile_iff {text : String} :
    markedKind? text = some .includeFile ↔ Carries .includeFile text := by
  refine ⟨carries_of_markedKind?, ?_⟩
  rintro ⟨m, hm, hkind, hin⟩
  have hsplit : markers = markers.take 2 ++ markers.drop 2 := rfl
  have hfirst : ∀ m ∈ markers.take 2, m.2 = .includeFile := by decide
  have hothers : ∀ m ∈ markers.drop 2, m.2 ≠ .includeFile := by decide
  rw [hsplit, List.mem_append] at hm
  have hmem : m ∈ markers.take 2 := hm.resolve_right fun ho => hothers m ho hkind
  rw [markedKind?, hsplit, List.find?_append]
  cases hfound : (markers.take 2).find? fun m => Text.occursIn m.1.toList text.toList with
  | none => exact absurd (Text.occursIn_iff.mpr hin) (List.find?_eq_none.mp hfound m hmem)
  | some first => exact congrArg some (hfirst first (List.mem_of_find?_eq_some hfound))

theorem kind_eq (d : Diagnostic) :
    d.kind = ((markedKind? d.code).or (markedKind? d.report)).getD .parse := by
  rw [Diagnostic.kind]
  cases markedKind? d.code <;> rfl

/-- A diagnostic is about an included file if its code tells it, or else its report. -/
theorem kind_eq_includeFile_iff {d : Diagnostic} :
    d.kind = .includeFile ↔
      Carries .includeFile d.code ∨ (¬Marked d.code ∧ Carries .includeFile d.report) := by
  rw [← markedKind?_eq_includeFile_iff, ← markedKind?_eq_includeFile_iff, ← markedKind?_eq_none_iff,
    kind_eq]
  cases markedKind? d.code with
  | some kind => simp
  | none => cases markedKind? d.report <;> simp

end Diagnostic

/-! ## Quoted lines -/

/-- A diagnostic as a parser renders it: a message, and below it the source line that it points
at. -/
structure Quotation where
  code : String
  message : String
  line : String
  isError : Bool := true
  place : Location := .origin

namespace Quotation

open Diagnostic

/-- The report of a rendered diagnostic. -/
def report (q : Quotation) : String :=
  q.message ++ "\n" ++ q.line ++ "\n"

/-- The diagnostic that was rendered. -/
def diagnostic (q : Quotation) : Diagnostic :=
  ⟨q.code, q.report, q.isError, q.place⟩

/-- The rendering of a fault in a SystemVerilog file. -/
def ofFault (fs : FileSystem) (path : Path) (fault : Verilog.SourceFault) : Quotation :=
  let span := Range.span path ⟨fault.place, fault.place⟩
  { code := s!"DiagCode({fault.cause.code})"
    message := s!"{span.path}:{span.line}:{span.column}: error: {fault.cause.message}"
    line := (fs.sourceLine span.path span.line).getD ""
    place := fault.place }

theorem ofFault_diagnostic (fs : FileSystem) (path : Path) (fault : Verilog.SourceFault) :
    (ofFault fs path fault).diagnostic = Verilog.diagnostic fs path fault := rfl

variable (q : Quotation)

/-- A marker stands in the message or in the quoted line, never across the line end between
them. -/
theorem infix_report {m : String × ErrorKind} (hm : m ∈ markers) :
    m.1.toList <:+: q.report.toList ↔
      m.1.toList <:+: q.message.toList ∨ m.1.toList <:+: q.line.toList := by
  obtain ⟨hne, hline⟩ := markers_oneLine m hm
  have hreport : q.report.toList = q.message.toList ++ '\n' :: (q.line.toList ++ ['\n']) := by
    simp [report]
  rw [hreport, Text.infix_append_cons_iff hne hline, Text.infix_append_cons_iff hne hline,
    List.infix_nil, or_iff_left hne]

theorem carries_report (kind : ErrorKind) :
    Carries kind q.report ↔ Carries kind q.message ∨ Carries kind q.line := by
  constructor
  · rintro ⟨m, hm, hkind, hin⟩
    exact ((q.infix_report hm).mp hin).imp (⟨m, hm, hkind, ·⟩) (⟨m, hm, hkind, ·⟩)
  · rintro (⟨m, hm, hkind, hin⟩ | ⟨m, hm, hkind, hin⟩)
    · exact ⟨m, hm, hkind, (q.infix_report hm).mpr (.inl hin)⟩
    · exact ⟨m, hm, hkind, (q.infix_report hm).mpr (.inr hin)⟩

/-- A rendered diagnostic is about an included file if its code tells it, or else its message or the
line that it quotes. -/
theorem diagnostic_kind_eq_includeFile_iff :
    q.diagnostic.kind = .includeFile ↔ Carries .includeFile q.code ∨
      (¬Marked q.code ∧ (Carries .includeFile q.message ∨ Carries .includeFile q.line)) := by
  rw [kind_eq_includeFile_iff, diagnostic, carries_report]

/-- A line without markers does not matter. -/
theorem markedKind?_report (h : ¬Marked q.line) : markedKind? q.report = markedKind? q.message := by
  unfold markedKind?
  congr 1
  refine List.find?_congr fun m hm => Bool.eq_iff_iff.mpr ?_
  rw [Text.occursIn_iff, Text.occursIn_iff, q.infix_report hm]
  exact or_iff_left fun hin => h ⟨m.2, m, hm, rfl, hin⟩

/-! ## What a quoted line can do -/

/-- The kind of a diagnostic is the same at all lines exactly if its code carries a marker, or its
message one of included files. Lines that carry no marker never make a difference. Where included
files are passed over, a file is read exactly if each error carries a marker of included files: in
its code, or else, if its code carries none at all, in its message or in the line that it quotes. -/
theorem kind_line (q : Quotation) :
    ((∀ line line', { q with line := line }.diagnostic.kind =
        { q with line := line' }.diagnostic.kind) ↔
      Marked q.code ∨ Carries .includeFile q.message) ∧
    (∀ line line', ¬Marked line → ¬Marked line' →
      { q with line := line }.diagnostic.kind = { q with line := line' }.diagnostic.kind) ∧
    ∀ (fs : FileSystem) (parser : SourceParser) (path : Path) (defines : DefineTable)
      (includes : List Path) (tree : Tree) (qs : List Quotation), fs.isFile path = .ok true →
      parser (ParsedSource.request path defines includes true) =
        .ok (tree, qs.map Quotation.diagnostic) →
      ((∃ parsed, ParsedSource.read fs parser path defines includes true = .ok parsed) ↔
        ∀ r ∈ qs, r.isError = true → Carries .includeFile r.code ∨
          (¬Marked r.code ∧ (Carries .includeFile r.message ∨ Carries .includeFile r.line))) := by
  refine ⟨⟨fun h => ?_, ?_⟩, fun line line' hl hl' => ?_, ?_⟩
  · -- a line with a marker of included files is compared with an empty one
    refine or_iff_not_imp_left.mpr fun hcode => ?_
    have hmarker : Carries .includeFile "CouldNotOpenIncludeFile" :=
      ⟨("CouldNotOpenIncludeFile", .includeFile), by decide, rfl, List.infix_rfl⟩
    have hempty : ¬Carries .includeFile "" := by
      rintro ⟨m, hm, -, hin⟩
      exact (markers_oneLine m hm).1 (List.infix_nil.mp hin)
    have hkind : { q with line := "CouldNotOpenIncludeFile" }.diagnostic.kind = .includeFile :=
      (diagnostic_kind_eq_includeFile_iff _).mpr (.inr ⟨hcode, .inr hmarker⟩)
    rw [h _ "", diagnostic_kind_eq_includeFile_iff] at hkind
    obtain ⟨-, htext⟩ := hkind.resolve_left fun hc => hcode ⟨_, hc⟩
    exact htext.resolve_right hempty
  · rintro hm line line'
    by_cases hcode : Marked q.code
    · rw [kind_eq, kind_eq]
      cases hk : markedKind? q.code with
      | none => exact absurd hcode (markedKind?_eq_none_iff.mp hk)
      | some kind => simp only [diagnostic, hk, Option.some_or]
    · have hinclude : ∀ line, { q with line := line }.diagnostic.kind = .includeFile := fun line =>
        (diagnostic_kind_eq_includeFile_iff _).mpr (.inr ⟨hcode, .inl (hm.resolve_left hcode)⟩)
      rw [hinclude, hinclude]
  · rw [kind_eq, kind_eq]
    have h := markedKind?_report { q with line := line } hl
    have h' := markedKind?_report { q with line := line' } hl'
    simp only [diagnostic, h, h']
  · intro fs parser path defines includes tree qs hfile hparse
    rw [ParsedSource.exists_read_iff hfile hparse, List.forall_mem_map]
    refine forall₂_congr fun r _ => imp_congr_right fun _ => ?_
    rw [eq_self_iff_true, true_and, diagnostic_kind_eq_includeFile_iff]

/-! ## A comment that hides an error -/

/-- The text of a file that lacks a semicolon, with a comment behind the gap. -/
def unfinished (comment : String) : String :=
  "module a endmodule //" ++ comment

/-- The error in such a file. -/
def missingSemicolon (comment : String) : Quotation :=
  { code := "DiagCode(ExpectedToken)"
    message := "a.sv:1:9: error: expected ;"
    line := unfinished comment
    place := .text none 8 1 9 }

/-- A directory with such a file. -/
def unfinishedFile (comment : String) : FileSystem :=
  { current := ["w"]
    entries := [(["w", "a.sv"], .file (unfinished comment ++ "\n").toUTF8.toList)] }

/-- The path of the file. -/
def unfinishedPath : Path :=
  ⟨.relative, ["a.sv"]⟩

/-- What the parser reports about such a file. -/
def diagnosticsOf (comment : String) : Option (List Diagnostic) :=
  (Verilog.reader (unfinishedFile comment) ⟨unfinishedPath, [], []⟩).toOption.map (·.2)

/-- Reading such a file without its included files. -/
def readUnfinished (comment : String) : Except ParseFailure ParsedSource :=
  ParsedSource.read (unfinishedFile comment) (Verilog.reader (unfinishedFile comment))
    unfinishedPath ∅ [] true

section Unfinished

variable (comment : String)

theorem not_marked_code : ¬Marked (missingSemicolon comment).code :=
  markedKind?_eq_none_iff.mp (by show markedKind? "DiagCode(ExpectedToken)" = none; decide +kernel)

theorem not_marked_message : ¬Marked (missingSemicolon comment).message :=
  markedKind?_eq_none_iff.mp (by
    show markedKind? "a.sv:1:9: error: expected ;" = none; decide +kernel)

theorem isFile_unfinished : (unfinishedFile comment).isFile unfinishedPath = .ok true := rfl

/-- Only the comment can make the missing semicolon an error about an included file. -/
theorem missingSemicolon_kind_iff :
    (missingSemicolon comment).diagnostic.kind = .includeFile ↔
      Carries .includeFile (missingSemicolon comment).line := by
  have hcode : ¬Carries .includeFile (missingSemicolon comment).code :=
    fun hc => not_marked_code comment ⟨_, hc⟩
  have hmessage : ¬Carries .includeFile (missingSemicolon comment).message :=
    fun hc => not_marked_message comment ⟨_, hc⟩
  rw [diagnostic_kind_eq_includeFile_iff, or_iff_right hcode,
    and_iff_right (not_marked_code comment), or_iff_right hmessage]

variable {comment}

/-- So only the comment decides on a file that lacks nothing but the semicolon. -/
theorem exists_readUnfinished_iff
    (h : diagnosticsOf comment = some [(missingSemicolon comment).diagnostic]) :
    (∃ parsed, readUnfinished comment = .ok parsed) ↔
      Carries .includeFile (missingSemicolon comment).line := by
  cases hr : Verilog.reader (unfinishedFile comment) ⟨unfinishedPath, [], []⟩ with
  | error fault =>
    rw [diagnosticsOf, hr] at h
    cases h
  | ok answer =>
    obtain ⟨tree, ds⟩ := answer
    rw [diagnosticsOf, hr] at h
    obtain rfl : ds = [(missingSemicolon comment).diagnostic] := Option.some.inj h
    rw [readUnfinished, ParsedSource.exists_read_iff (isFile_unfinished comment) hr,
      List.forall_mem_singleton, ← missingSemicolon_kind_iff]
    exact ⟨fun hd => (hd rfl).2, fun hk _ => ⟨rfl, hk⟩⟩

end Unfinished

/-- The missing semicolon is an error of the same kind whatever plain comment stands behind it, and
the file is refused. -/
theorem kind_line_plain :
    let q := missingSemicolon " first"
    let line := unfinished " second"
    let parser : SourceParser := fun _ => .ok (.absent, [q.diagnostic])
    ¬Marked q.line ∧ ¬Marked line ∧
    q.diagnostic.kind = { q with line := line }.diagnostic.kind ∧
    (unfinishedFile " first").isFile unfinishedPath = .ok true ∧
    ¬∃ parsed, ParsedSource.read (unfinishedFile " first") parser unfinishedPath ∅ [] true =
      .ok parsed := by
  intro q line parser
  have hq : ¬Marked q.line := markedKind?_eq_none_iff.mp (by decide +kernel)
  have hline : ¬Marked line := markedKind?_eq_none_iff.mp (by decide +kernel)
  obtain ⟨-, hplain, hread⟩ := kind_line q
  refine ⟨hq, hline, hplain _ _ hq hline, isFile_unfinished _, ?_⟩
  rw [hread _ parser _ ∅ [] .absent [q] (isFile_unfinished _) rfl, List.forall_mem_singleton]
  exact fun h => hq ⟨_, (missingSemicolon_kind_iff _).mp
    ((diagnostic_kind_eq_includeFile_iff q).mpr (h rfl))⟩

/-- The words of a marker in the comment turn the same error into one about an included file, and
the file is read as if it had no error. -/
theorem kind_marked_comment :
    let plain := missingSemicolon ""
    let marked := missingSemicolon " could not find or open include file"
    marked = { plain with line := marked.line } ∧
    plain.diagnostic.kind ≠ marked.diagnostic.kind ∧
    diagnosticsOf "" = some [plain.diagnostic] ∧ (¬∃ parsed, readUnfinished "" = .ok parsed) ∧
    ¬Marked marked.code ∧ ¬Marked marked.message ∧
    diagnosticsOf " could not find or open include file" = some [marked.diagnostic] ∧
    ∃ parsed, readUnfinished " could not find or open include file" = .ok parsed := by
  intro plain marked
  have hplain : ¬Carries .includeFile plain.line := fun h =>
    absurd (markedKind?_eq_includeFile_iff.mpr h) (by decide +kernel)
  have hmarked : Carries .includeFile marked.line :=
    markedKind?_eq_includeFile_iff.mp (by decide +kernel)
  have hreport : diagnosticsOf "" = some [plain.diagnostic] := by decide +kernel
  have hreport' : diagnosticsOf " could not find or open include file" = some [marked.diagnostic] := by
    decide +kernel
  refine ⟨rfl, fun hkind => ?_, hreport, mt (exists_readUnfinished_iff hreport).mp hplain,
    not_marked_code _, not_marked_message _, hreport', (exists_readUnfinished_iff hreport').mpr hmarked⟩
  exact hplain ((missingSemicolon_kind_iff _).mp
    (hkind.trans ((missingSemicolon_kind_iff _).mpr hmarked)))

end Quotation

end HdlLint
