import HdlLint.Path

/-!
# Errors of source files

A source file that cannot be parsed has an error of a kind (`ErrorKind`). A run reports
the error and goes on with the next file.
-/

namespace HdlLint

/-- The kind of an error of a source file. -/
inductive ErrorKind
  /-- The text breaks the grammar. -/
  | parse
  /-- An included file cannot be opened. -/
  | includeFile
  /-- The usage of a macro has the wrong arguments. -/
  | macroArguments
  /-- A macro is not defined. -/
  | macroName
  /-- The file itself cannot be opened. -/
  | file
  /-- A kind that only its name tells. -/
  | other (name : String)
deriving DecidableEq, Repr

/-- An error of a source file. -/
structure SourceError where
  kind : ErrorKind
  path : Path
  line : Option Int := none
  column : Option Int := none
  /-- What the error is about: a file, a macro, or a whole message. -/
  detail : String := ""
deriving DecidableEq, Repr

namespace ErrorKind

/-- The name of a kind. -/
def name : ErrorKind → String
  | .parse => "parse"
  | .includeFile => "include"
  | .macroArguments => "define_arg"
  | .macroName => "define"
  | .file => "io"
  | .other name => name

end ErrorKind

namespace SourceError

/-- The message of an error. -/
def message (e : SourceError) : String :=
  match e.kind with
  | .includeFile => s!"failed to include '{e.detail}'"
  | .macroArguments => s!"define argument '{e.detail}' is not found"
  | .macroName => s!"define '{e.detail}' is not found"
  | .file => e.detail
  | .parse => "parse error"
  | .other _ => "parse error"

/-- A short text for an error: what it is about, else its kind and file. -/
def summary (e : SourceError) : String :=
  if e.detail = "" then s!"{e.kind.name} error in '{e.path}'" else e.detail

end SourceError

end HdlLint
