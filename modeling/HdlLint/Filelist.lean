import HdlLint.Define
import HdlLint.Environment
import HdlLint.FileSystem

/-!
# Filelists

A filelist names source files, include directories and macro definitions, one entry a line, and
other filelists whose content stands for their line. `Filelist.load` resolves a filelist with all
that it refers to.

* `Filelist.merge` appends the content of another filelist, later definitions winning;
* `FilelistLine.read` says what one line means;
* `Filelist.resolve` is bounded by a depth; `Filelist.load` takes a depth that only a filelist
  that refers to itself can exceed.
-/

namespace HdlLint

/-- The content of a filelist. -/
structure Filelist where
  files : List Path
  includes : List Path
  defines : DefineTable

/-- What one line of a filelist means. -/
inductive FilelistLine
  /-- A blank line, a comment, or an option of another tool. -/
  | noise
  /-- Directories to search for included files. -/
  | includes (directories : List Path)
  /-- Macro definitions. -/
  | defines (defines : List Define)
  /-- Another filelist. -/
  | nested (path : Path)
  /-- A source file. -/
  | source (path : Path)
deriving DecidableEq, Repr

/-- Why a filelist cannot be resolved. -/
inductive FilelistFault
  /-- A filelist that cannot be read. -/
  | unreadable (path : Path) (fault : FileSystem.ReadFault)
  /-- A filelist that refers to itself, directly or through others. -/
  | endless
deriving DecidableEq, Repr

namespace FilelistFault

/-- The message of a fault. -/
def message : FilelistFault → String
  | .unreadable path fault => s!"failed to open '{path}': " ++ fault.message path
  | .endless => "maximum recursion depth exceeded"

end FilelistFault

namespace FilelistLine

/-- The parts between plus signs that are not empty. -/
def segments (s : List Char) : List (List Char) :=
  (Text.splitOn '+' s).filter (· ≠ [])

/-- The meaning of a line that is neither blank nor a comment, after expansion. -/
def ofExpanded (line : List Char) : FilelistLine :=
  match Text.afterStart? "+incdir+".toList line with
  | some rest => .includes ((segments rest).map fun s => Path.ofString (String.ofList s))
  | none =>
    match Text.afterStart? "+define+".toList line with
    | some rest => .defines ((segments rest).map Define.ofItem)
    | none =>
      match Text.afterStart? "-f ".toList line with
      | some rest => .nested (Path.ofString (String.ofList (Text.strip rest)))
      | none =>
        match line with
        | '+' :: _ => .noise
        | '-' :: _ => .noise
        | _ => .source (Path.ofString (String.ofList line))

/-- The meaning of a line. Comments are recognized before references are expanded. -/
def read (env : Environment) (raw : List Char) : FilelistLine :=
  match Text.strip raw with
  | [] => .noise
  | '/' :: '/' :: _ => .noise
  | line => ofExpanded (env.expandChars line)

end FilelistLine

namespace Filelist

/-- The filelist without content. -/
def empty : Filelist :=
  ⟨[], [], OrderedTable.empty⟩

/-- Appends the content of another filelist. Later definitions win. -/
def merge (a b : Filelist) : Filelist :=
  ⟨a.files ++ b.files, a.includes ++ b.includes, a.defines.update b.defines⟩

/-- Adds what a line means, given how filelists are resolved. -/
def addLine (resolve : Path → Except FilelistFault Filelist) (acc : Filelist) :
    FilelistLine → Except FilelistFault Filelist
  | .noise => .ok acc
  | .includes directories => .ok { acc with includes := acc.includes ++ directories }
  | .defines defines => .ok { acc with defines := defines.foldl DefineTable.define acc.defines }
  | .nested path =>
    match resolve path with
    | .ok inner => .ok (acc.merge inner)
    | .error fault => .error fault
  | .source path => .ok { acc with files := acc.files ++ [path] }

/-- Adds what the lines of a list mean, one after the other. -/
def addLines (resolve : Path → Except FilelistFault Filelist) :
    Filelist → List FilelistLine → Except FilelistFault Filelist
  | acc, [] => .ok acc
  | acc, line :: lines =>
    match addLine resolve acc line with
    | .ok acc' => addLines resolve acc' lines
    | .error fault => .error fault

/-- The lines of a filelist, by what they mean. -/
def linesOf (env : Environment) (text : List Char) : List FilelistLine :=
  (Text.splitLines text).map (FilelistLine.read env)

/-- Resolves a filelist with the filelists it refers to, down to the given depth. -/
def resolve (fs : FileSystem) (env : Environment) : (depth : Nat) → Path →
    Except FilelistFault Filelist
  | 0, _ => .error .endless
  | depth + 1, path =>
    match fs.readText path with
    | .error fault => .error (.unreadable path fault)
    | .ok text => addLines (resolve fs env depth) empty (linesOf env text)

/-- Resolves a filelist. A chain of references that is longer than the number of files meets one
of them twice, and then never ends. -/
def load (fs : FileSystem) (env : Environment) (path : Path) : Except FilelistFault Filelist :=
  resolve fs env (fs.entries.length + 1) path

end Filelist

end HdlLint
