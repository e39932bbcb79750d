import HdlLint.DefineThread
import HdlLint.Diagnostic
import HdlLint.Fault

/-!
# Parsed source files

`ParsedSource.read` parses one source file, given a parser and the definitions in effect, and gives
the tree with the definitions behind it. The first error that the parser reports is the error of
the file; errors about included files can be passed over. A parser may fail as a whole: faults of
the system and of a running program are errors of the file then, any other is not caught.
-/

namespace HdlLint

/-- What a parser of source files is asked. -/
structure ParseRequest where
  file : Path
  /-- Definitions, each on one line. -/
  predefines : List String
  /-- Where included files are looked for. -/
  includes : List Path

/-- A parser of source files. It may fail as a whole. -/
abbrev SourceParser := ParseRequest → Except Fault (Tree × List Diagnostic)

/-- A source file that was parsed. -/
structure ParsedSource where
  path : Path
  tree : Tree
  /-- The definitions in effect behind it. -/
  defines : DefineTable

/-- Why a source file was not parsed. -/
inductive ParseFailure
  | error (e : SourceError)
  /-- A fault that is not caught: the system does not let one look at the file, or the parser fails in
  a way that is no error of the file. -/
  | fault (f : Fault)

namespace ParsedSource

/-- What a parser is asked for a file. -/
def request (path : Path) (defines : DefineTable) (includes : List Path) (ignoreInclude : Bool) :
    ParseRequest :=
  ⟨path, defines.values.map Define.toPredefine, if ignoreInclude then [] else includes⟩

/-- The first diagnostic that is an error of the file, with its kind. -/
def firstError? (ignoreInclude : Bool) : List Diagnostic → Option (Diagnostic × ErrorKind)
  | [] => none
  | d :: ds =>
    if !d.isError || (ignoreInclude && d.kind = .includeFile) then firstError? ignoreInclude ds
    else some (d, d.kind)

/-- Parses a source file. -/
def read (fs : FileSystem) (parser : SourceParser) (path : Path) (defines : DefineTable)
    (includes : List Path) (ignoreInclude : Bool) : Except ParseFailure ParsedSource :=
  match fs.isFile path with
  | .error refusal => .error (.fault (.ofRefusal refusal path))
  | .ok false =>
    .error (.error { kind := .file, path := path, detail := s!"failed to open '{path}'" })
  | .ok true =>
    match parser (request path defines includes ignoreInclude) with
    | .error fault =>
      if (fault.isSystem || fault.isRuntime) && !fault.escapes then
        .error (.error
          { kind := .file, path := path, detail := s!"failed to open '{path}': " ++ fault.message })
      else .error (.fault fault)
    | .ok (tree, diagnostics) =>
      match firstError? ignoreInclude diagnostics with
      | some (d, kind) => .error (.error (d.toError fs path kind))
      | none => .ok ⟨path, tree, defines.thread tree⟩

end ParsedSource

end HdlLint
