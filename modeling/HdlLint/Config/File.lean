import HdlLint.Config.Document
import HdlLint.FileSystem

/-!
# Configuration files

Reading a configuration from a file and writing one to it. Unknown rules give a warning each
(`Config.warning`); a failure names the file (`Config.Fault`).
-/

namespace HdlLint.Config

/-- Why a configuration cannot be read or written. -/
inductive Fault
  | unopened (path : Path) (fault : FileSystem.ReadFault)
  | unwritten (path : Path) (fault : FileFault)
  /-- The document of that name is no configuration. -/
  | refused (origin : String) (cause : Cause)
deriving DecidableEq, Repr

/-- The message of a fault. -/
def Fault.message : Fault → String
  | .unopened path fault => s!"failed to open '{path}': " ++ fault.message path
  | .unwritten path fault => s!"failed to write '{path}': " ++ fault.message path
  | .refused origin cause => s!"failed to parse toml '{origin}': " ++ cause.message

/-- The warning about an unknown rule in the document of a name. -/
def warning (origin name : String) : String :=
  s!"[svlint] Unknown rule '{name}' in '{origin}' is ignored.\n"

namespace Reading

/-- The warnings of reading the document of a name. -/
def warnings (r : Reading) (origin : String) : String :=
  String.join (r.unknown.map (warning origin))

/-- The configuration that was read from the document of a name. -/
def result (r : Reading) (origin : String) : Except Fault Config :=
  match r.outcome with
  | .ok c => .ok c
  | .error cause => .error (.refused origin cause)

end Reading

/-- Reads the configuration of a file: the warnings, and the configuration. -/
def load (fs : FileSystem) (path : Path) : String × Except Fault Config :=
  match fs.readText path with
  | .error fault => ("", .error (.unopened path fault))
  | .ok text =>
    let reading := ofText (String.ofList text)
    (reading.warnings path.toString, reading.result path.toString)

/-- Writes a configuration to a file. -/
def store (fs : FileSystem) (path : Path) (c : Config) : Except Fault FileSystem :=
  match fs.write path c.toText.toUTF8.toList with
  | .ok fs => .ok fs
  | .error fault => .error (.unwritten path fault)

end HdlLint.Config
