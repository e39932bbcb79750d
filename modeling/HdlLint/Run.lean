import HdlLint.Config.Exclude
import HdlLint.Linter
import HdlLint.Report
import HdlLint.Source

/-!
# Runs over source files

A run parses and checks source files strictly in order. Files that the configuration excludes are
left out; the definitions behind a file are in effect for the next one, except that a file that
cannot be parsed leaves them as they were. What a run tells does not depend on what of it is
written.
-/

namespace HdlLint

/-- How a run parses a file with the definitions in effect. -/
abbrev ParseFile := Path → DefineTable → Except ParseFailure ParsedSource

/-- A file that a run parsed, with the definitions in effect in front of it. -/
structure ParseCall where
  path : Path
  defines : DefineTable

/-- Why a run ends early. -/
inductive RunFault
  /-- A pattern of excluded files that is no regular expression. -/
  | pattern (fault : Pattern.Fault)
  /-- A rule that fails. -/
  | rule (fault : PluginFault)
  /-- A fault of parsing a file that is no error of the file. -/
  | parser (fault : Fault)

/-- What happened in a run. -/
structure Run where
  calls : List ParseCall
  reports : List Report
  /-- The files that were left out. -/
  skipped : List Path
  /-- Whether all files passed, if the run went to its end. -/
  outcome : Except RunFault Bool

namespace Run

/-- The run over no files. -/
def done : Run :=
  ⟨[], [], [], .ok true⟩

/-- The run that ends with a fault. -/
def failed (calls : List ParseCall) (fault : RunFault) : Run :=
  ⟨calls, [], [], .error fault⟩

/-- A run behind a file that was left out. -/
def skip (path : Path) (rest : Run) : Run :=
  { rest with skipped := path :: rest.skipped }

/-- A run behind a file that was parsed. The file passes where nothing but its passing is
reported. -/
def behind (call : ParseCall) (reports : List Report) (passed : Bool) (rest : Run) : Run :=
  ⟨call :: rest.calls, reports ++ rest.reports, rest.skipped, rest.outcome.map (passed && ·)⟩

/-- A run over files. -/
def ofPaths (linter : Linter) (parse : ParseFile) : DefineTable → List Path → Run
  | _, [] => done
  | defines, path :: paths =>
    match linter.config.isExcluded path with
    | .error fault => failed [] (.pattern fault)
    | .ok true => skip path (ofPaths linter parse defines paths)
    | .ok false =>
      let call : ParseCall := ⟨path, defines⟩
      match parse path defines with
      | .error (.fault fault) => failed [call] (.parser fault)
      | .error (.error e) => behind call [.unparsed e] false (ofPaths linter parse defines paths)
      | .ok parsed =>
        match linter.lint parsed.path parsed.tree with
        | .error fault => failed [call] (.rule fault)
        | .ok [] => behind call [.passed path] true (ofPaths linter parse parsed.defines paths)
        | .ok broken =>
          behind call (broken.map .broken) false (ofPaths linter parse parsed.defines paths)

/-- The warning about a file that is left out. -/
def skipWarning (path : Path) : String :=
  s!"[svlint] Skipping excluded file '{path}'.\n"

/-- The warnings of a run. -/
def warnings (v : Verbosity) (run : Run) : String :=
  if v.verbose then String.join (run.skipped.map skipWarning) else ""

end Run

end HdlLint
