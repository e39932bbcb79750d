import HdlLint.Program
import HdlLint.Verilog.Lexer

/-!
# What a run looks at

The paths and the environment variables that a run may look at, as far as the files that are known
tell (`Program.demand`). Files that become known can ask for more; a host that holds all that its
own files ask for gives the answers of the machine.
-/

namespace HdlLint

open CommandLine (Options)

/-- What a run may look at. -/
structure Demand where
  paths : List Path
  variableNames : List String

namespace Program

/-- The strings in a source text, any of which can be the name of an included file. -/
def stringsIn (text : List Char) : List String :=
  ((Verilog.Lexer.lexemes none text).filter (·.cls = .string)).map (·.value)

/-- The paths of files that a file at a place may include. -/
def includablePaths (includes : List Path) (names : List String) (place : List String) :
    List Path :=
  names.flatMap fun name =>
    (⟨.slash, place.dropLast⟩ :: includes).map (·.join (Path.ofString name))

/-- The paths of source files and of what they may include. -/
def sourcePaths (fs : FileSystem) (i : Filelist) : List Path :=
  let defined := i.defines.values.flatMap fun d => stringsIn (d.text.getD "").toList
  i.files ++ fs.entries.flatMap fun
    | (place, .file bytes) =>
      includablePaths i.includes (defined ++ stringsIn (Text.decodeLossy bytes)) place
    | (_, .directory) => []

/-- The paths of filelists, source files and included files. -/
def inputPaths (h : Host) (o : Options) : List Path :=
  match inputs h o with
  | .ok i => sourcePaths h.files i
  | .error (.unreadable path _) => [path]
  | .error .endless => []

/-- The variables that known files may refer to. -/
def variableNames (fs : FileSystem) : List String :=
  fs.entries.flatMap fun
    | (_, .file bytes) => Environment.referencedNames (Text.decodeLossy bytes)
    | (_, .directory) => []

/-- What a run with the words of a command line may look at. -/
def demand (h : Host) (words : List String) : Demand :=
  match CommandLine.read words with
  | .ok (.run o) =>
    if o.sample then ⟨[], []⟩
    else
      ⟨Config.candidates o.config h.files.currentPath ++ o.plugins ++ o.filelists ++ inputPaths h o,
        variableNames h.files⟩
  | _ => ⟨[], []⟩

end Program

end HdlLint
