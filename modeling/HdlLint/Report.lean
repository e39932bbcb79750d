import HdlLint.FileSystem
import HdlLint.Rule.Basic
import HdlLint.Snippet
import HdlLint.SourceError

/-!
# Reports

What a run has to tell about a source file (`Report`), and the lines that it is written in: a
snippet of the source, or one line a report. A snippet of a file whose name holds a null character is
one without a line (`FileSystem.sourceLine`), where a program would end.
-/

namespace HdlLint

/-- What a run tells about a source file. -/
inductive Report
  /-- A rule is broken. -/
  | broken (failed : Failed)
  /-- The file cannot be parsed. -/
  | unparsed (error : SourceError)
  /-- The file keeps all rules. -/
  | passed (path : Path)
deriving DecidableEq, Repr

/-- Which reports are written, and how. -/
structure Verbosity where
  /-- One line a report. -/
  single : Bool := false
  /-- No reports on broken rules and errors. -/
  silent : Bool := false
  /-- Reports on files that pass, and warnings about those that are left out. -/
  verbose : Bool := false
deriving DecidableEq, Repr

namespace Report

/-- The line of an error. -/
def errorLine (message : String) : String :=
  "Error: " ++ message

/-- The line of a piece of information. -/
def infoLine (message : String) : String :=
  "Info: " ++ message

/-- The snippet of a place in a file, with notes. -/
def snippet (fs : FileSystem) (s : Snippet) (notes : List String) : List String :=
  s.lines (fs.sourceLine s.path s.line) notes

/-- The lines about a broken rule. -/
def brokenLines (fs : FileSystem) (single : Bool) (f : Failed) : List String :=
  if single then
    [s!"Fail: {f.path}:{f.line}:{f.column} {f.name} hint: {f.hint}" ++
      (if f.reason = "" then "" else s!" reason: {f.reason}")]
  else
    s!"Fail: {f.name}" ::
      snippet fs ⟨f.path, f.line, f.column, f.length⟩
        [s!"hint  : {f.hint}", s!"reason: {f.reason}"]

/-- The column of an error: the first one where it has none. -/
def errorColumn (column : Option Int) : Int :=
  match column with
  | none => 1
  | some n => if n = 0 then 1 else n

/-- The lines about a file that cannot be parsed. Only an error of the grammar with a place shows
the source. -/
def errorLines (fs : FileSystem) (single : Bool) (e : SourceError) : List String :=
  match e.kind, e.line with
  | .parse, some line =>
    let column := errorColumn e.column
    if single then [s!"Error: {e.path}:{line}:{column} parse error"]
    else "Error: parse error" :: snippet fs ⟨e.path.toString, line, column, 1⟩ ["parse error"]
  | _, _ => [errorLine e.message]

/-- The lines of a report. -/
def lines (fs : FileSystem) (single : Bool) : Report → List String
  | .broken f => brokenLines fs single f
  | .unparsed e => errorLines fs single e
  | .passed path => [infoLine s!"pass '{path}'"]

/-- Whether a report is written. -/
def isWritten (v : Verbosity) : Report → Bool
  | .passed _ => v.verbose
  | _ => !v.silent

/-- The text of the reports that are written. -/
def write (fs : FileSystem) (v : Verbosity) (reports : List Report) : String :=
  Text.ofLines ((reports.filter (isWritten v)).flatMap (lines fs v.single))

end Report

end HdlLint
