import HdlLint.Demand
import HdlLint.Verilog.Reader

/-!
# The command line

Looks at the files and variables that a run asks for until it asks for nothing new, runs the
program on what was found, and writes what it leaves behind. There are no plugins with an entry
point, and what the machine does not let one look at counts as missing.
-/

namespace HdlLint

/-- A host, and what was looked at for it. -/
structure Survey where
  host : Host
  paths : List Path
  variableNames : List String

namespace Survey

/-- The name of a place. -/
def nameOf (place : List String) : String :=
  "/" ++ "/".intercalate place

/-- What stands at a place. -/
def lookAt (place : List String) : IO (Option Entry) := do
  match ← (IO.FS.readBinFile (nameOf place)).toBaseIO with
  | .ok bytes => return some (.file bytes.toList)
  | .error (.inappropriateType ..) => return some .directory
  | .error _ => return none

/-- Looks at a place and at those that a path leads to from there. -/
def walk (fs : FileSystem) (place : List String) : List String → IO FileSystem
  | [] => visit
  | part :: parts => do
    let fs ← visit
    match fs.at? place with
    | some .directory =>
      walk fs (if part = ".." then place.dropLast else place ++ [part]) parts
    | _ => return fs
where
  /-- Looks at the place itself. -/
  visit : IO FileSystem := do
    if (FileSystem.entryAt? place fs.entries).isSome then return fs
    match ← lookAt place with
    | some e => return { fs with entries := fs.entries ++ [(place, e)] }
    | none => return fs

/-- Looks at a path. -/
def addPath (s : Survey) (path : Path) : IO Survey := do
  let fs := s.host.files
  if path.parts.any fun part => part.toList.contains '\x00' then return s
  let fs ← walk fs (if path.isAbsolute then [] else fs.current) path.parts
  return { s with host := { s.host with files := fs } }

/-- Looks at a variable. -/
def addVariable (s : Survey) (name : String) : IO Survey := do
  match ← IO.getEnv name with
  | none => return s
  | some value =>
    let environment := ⟨s.host.environment.vars ++ [(name, value)]⟩
    return { s with host := { s.host with environment := environment } }

/-- Looks at all that a run asks for. -/
partial def complete (words : List String) (s : Survey) : IO Survey := do
  let demand := Program.demand s.host words
  let paths := (demand.paths.filter fun p => !s.paths.contains p).eraseDups
  let names := (demand.variableNames.filter fun n => !s.variableNames.contains n).eraseDups
  if paths.isEmpty && names.isEmpty then return s
  let s ← paths.foldlM addPath { s with paths := s.paths ++ paths }
  let s ← names.foldlM addVariable { s with variableNames := s.variableNames ++ names }
  complete words s

/-- The survey before anything was looked at. -/
def start : IO Survey := do
  let current := Path.ofString (toString (← IO.currentDir))
  let files : FileSystem := { current := current.parts, entries := [] }
  return ⟨⟨files, ⟨[]⟩, ⟨[]⟩, Verilog.reader⟩, [], []⟩

end Survey

/-- Writes the files that differ from what was found. -/
def writeChanges (before after : FileSystem) : IO Unit := do
  for (place, e) in after.entries do
    if let .file bytes := e then
      if FileSystem.entryAt? place before.entries ≠ some e then
        IO.FS.writeBinFile (Survey.nameOf place) ⟨bytes.toArray⟩

end HdlLint

open HdlLint in
/-- Runs the program on this machine. -/
def main (words : List String) : IO UInt32 := do
  let s ← (← Survey.start).complete words
  let outcome := Program.start s.host words
  IO.print outcome.stdout
  IO.eprint outcome.stderr
  writeChanges s.host.files outcome.files
  match outcome.exit with
  | .ok code => return code.toUInt32
  | .error _ =>
    IO.eprintln "svlint: broken off"
    return 1
