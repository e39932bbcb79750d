import HdlLint.Proofs.Filelist.Merge

/-!
# The reading order of a filelist

The lines that resolving a filelist meets, depth-first: behind a line that names a filelist come
the lines of that filelist (`reading`). Unless it is endless, a filelist that opens only readable
ones gives what the lines of its reading hold, in their order, and any other one fails at the first
filelist that cannot be read (`resolve_eq`).
-/

namespace HdlLint

namespace FilelistLine

/-- The source files that a line names. -/
def sources : FilelistLine → List Path
  | .source path => [path]
  | _ => []

/-- The include directories that a line names. -/
def directories : FilelistLine → List Path
  | .includes paths => paths
  | _ => []

/-- The macros that a line defines. -/
def definitions : FilelistLine → List Define
  | .defines ds => ds
  | _ => []

/-- The filelists that a line names. -/
def references : FilelistLine → List Path
  | .nested path => [path]
  | _ => []

end FilelistLine

namespace Filelist

variable {fs : FileSystem} {env : Environment}

/-- Lines, with what is read behind those that name a filelist. -/
def followed (reading : Path → List FilelistLine) (lines : List FilelistLine) :
    List FilelistLine :=
  lines.flatMap fun line => line :: line.references.flatMap reading

/-- The lines of a filelist in the order in which they are read, down to the given depth. -/
def reading (fs : FileSystem) (env : Environment) : (depth : Nat) → Path → List FilelistLine
  | 0, _ => []
  | depth + 1, path =>
    match fs.readText path with
    | .error _ => []
    | .ok text => followed (reading fs env depth) (linesOf env text)

/-- The filelists that are opened for a filelist, in order: itself, and those that its reading
names. -/
def opened (fs : FileSystem) (env : Environment) (depth : Nat) (path : Path) : List Path :=
  path :: (reading fs env depth path).flatMap FilelistLine.references

/-- The fault of the first filelist that cannot be read. -/
def firstUnreadable (fs : FileSystem) (paths : List Path) : Option FilelistFault :=
  paths.findSome? fun path =>
    match fs.readText path with
    | .error fault => some (.unreadable path fault)
    | .ok _ => none

/-- A filelist with what some lines hold, those aside that name filelists. -/
def collect (a : Filelist) (lines : List FilelistLine) : Filelist where
  files := a.files ++ lines.flatMap FilelistLine.sources
  includes := a.includes ++ lines.flatMap FilelistLine.directories
  defines := (lines.flatMap FilelistLine.definitions).foldl DefineTable.define a.defines

/-- What is collected from lines when the given filelists have to be opened for them. -/
def collectIfRead (fs : FileSystem) (a : Filelist) (paths : List Path) (lines : List FilelistLine) :
    Except FilelistFault Filelist :=
  match firstUnreadable fs paths with
  | some fault => .error fault
  | none => .ok (collect a lines)

/-! ## Collecting -/

theorem collect_nil (a : Filelist) : collect a [] = a := by
  simp only [collect, List.flatMap_nil, List.append_nil, List.foldl_nil]

theorem collect_append (a : Filelist) (lines rest : List FilelistLine) :
    collect a (lines ++ rest) = collect (collect a lines) rest := by
  simp only [collect, List.flatMap_append, List.append_assoc, List.foldl_append]

theorem merge_collect (a b : Filelist) (lines : List FilelistLine) :
    a.merge (collect b lines) = collect (a.merge b) lines := by
  simp only [collect, merge, List.append_assoc, DefineTable.foldl_define_update]

/-- A line that names a filelist holds nothing itself. -/
theorem collect_nested (a : Filelist) (path : Path) : collect a [.nested path] = a := by
  simp only [collect, List.flatMap_singleton, FilelistLine.sources, FilelistLine.directories,
    FilelistLine.definitions, List.append_nil, List.foldl_nil]

theorem addLine_eq_collect (resolve : Path → Except FilelistFault Filelist) (a : Filelist)
    {line : FilelistLine} (h : line.references = []) : addLine resolve a line = .ok (collect a [line]) := by
  cases line with
  | nested path => cases h
  | _ =>
    simp only [addLine, collect, List.flatMap_singleton, FilelistLine.sources,
      FilelistLine.directories, FilelistLine.definitions, List.append_nil, List.foldl_nil]

theorem firstUnreadable_cons (path : Path) (paths : List Path) :
    firstUnreadable fs (path :: paths) =
      match fs.readText path with
      | .error fault => some (.unreadable path fault)
      | .ok _ => firstUnreadable fs paths := by
  rw [firstUnreadable, List.findSome?_cons]
  cases fs.readText path <;> rfl

theorem firstUnreadable_append (paths rest : List Path) :
    firstUnreadable fs (paths ++ rest) = (firstUnreadable fs paths).or (firstUnreadable fs rest) :=
  List.findSome?_append

/-- The first filelist that cannot be read has only readable ones in front of it. -/
theorem firstUnreadable_eq_some_iff {paths : List Path} {fault : FilelistFault} :
    firstUnreadable fs paths = some fault ↔
      ∃ before path after cause, paths = before ++ path :: after ∧
        (∀ q ∈ before, ∃ text, fs.readText q = .ok text) ∧
        fs.readText path = .error cause ∧ fault = .unreadable path cause := by
  rw [firstUnreadable, List.findSome?_eq_some_iff]
  have hreadable : ∀ q, (match fs.readText q with
      | .error cause => some (FilelistFault.unreadable q cause)
      | .ok _ => none) = none ↔ ∃ text, fs.readText q = .ok text := by
    intro q
    cases fs.readText q <;> simp
  simp only [hreadable]
  constructor
  · rintro ⟨before, path, after, rfl, hfault, hbefore⟩
    cases hp : fs.readText path with
    | error cause =>
      rw [hp] at hfault
      exact ⟨before, path, after, cause, rfl, hbefore, hp, (Option.some.inj hfault).symm⟩
    | ok text => rw [hp] at hfault; cases hfault
  · rintro ⟨before, path, after, cause, rfl, hbefore, hp, rfl⟩
    exact ⟨before, path, after, rfl, by rw [hp], hbefore⟩

theorem collectIfRead_append (a : Filelist) (paths rest : List Path) (lines lines' : List FilelistLine) :
    collectIfRead fs a (paths ++ rest) (lines ++ lines') =
      (collectIfRead fs a paths lines).bind (collectIfRead fs · rest lines') := by
  rw [collectIfRead, collectIfRead, firstUnreadable_append, collect_append]
  cases firstUnreadable fs paths <;> rfl

theorem map_merge_collectIfRead (a b : Filelist) (paths : List Path) (lines : List FilelistLine) :
    (collectIfRead fs b paths lines).map a.merge = collectIfRead fs (a.merge b) paths lines := by
  rw [collectIfRead, collectIfRead]
  cases firstUnreadable fs paths with
  | none => exact congrArg Except.ok (merge_collect a b lines)
  | some fault => rfl

/-! ## Resolving -/

theorem followed_cons (reading : Path → List FilelistLine) (line : FilelistLine)
    (lines : List FilelistLine) :
    followed reading (line :: lines) = followed reading [line] ++ followed reading lines := by
  simp only [followed, List.flatMap_cons, List.flatMap_nil, List.append_nil]

/-- The filelists that are opened for the lines of a filelist. -/
theorem references_followed (depth : Nat) (lines : List FilelistLine) :
    (followed (reading fs env depth) lines).flatMap FilelistLine.references =
      (lines.flatMap FilelistLine.references).flatMap (opened fs env depth) := by
  simp only [followed, List.flatMap_assoc]
  congr 1
  funext line
  cases line <;> simp [FilelistLine.references, opened]

/-- What a line adds, where the filelist that it may name is resolved as its reading says. -/
theorem addLine_eq {depth : Nat} {line : FilelistLine} (a : Filelist)
    (h : ∀ q, line = .nested q → resolve fs env depth q =
      collectIfRead fs empty (opened fs env depth q) (reading fs env depth q)) :
    addLine (resolve fs env depth) a line =
      collectIfRead fs a (line.references.flatMap (opened fs env depth))
        (followed (reading fs env depth) [line]) := by
  cases line with
  | nested q =>
    have hadd : addLine (resolve fs env depth) a (.nested q) =
        (resolve fs env depth q).map a.merge := by
      rw [addLine]
      cases resolve fs env depth q <;> rfl
    rw [hadd, h q rfl, map_merge_collectIfRead, merge_empty]
    simp only [followed, FilelistLine.references, List.flatMap_cons, List.flatMap_nil, List.append_nil]
    rw [collectIfRead, collectIfRead, ← List.singleton_append, collect_append, collect_nested]
  | _ =>
    rw [addLine_eq_collect _ a rfl]
    rfl

theorem addLines_eq {depth : Nat} {lines : List FilelistLine}
    (h : ∀ q, .nested q ∈ lines → resolve fs env depth q ≠ .error .endless →
      resolve fs env depth q =
        collectIfRead fs empty (opened fs env depth q) (reading fs env depth q))
    (a : Filelist) (hne : addLines (resolve fs env depth) a lines ≠ .error .endless) :
    addLines (resolve fs env depth) a lines =
      collectIfRead fs a ((lines.flatMap FilelistLine.references).flatMap (opened fs env depth))
        (followed (reading fs env depth) lines) := by
  induction lines generalizing a with
  | nil => exact congrArg Except.ok (collect_nil a).symm
  | cons line lines ih =>
    have hline : addLine (resolve fs env depth) a line =
        collectIfRead fs a (line.references.flatMap (opened fs env depth))
          (followed (reading fs env depth) [line]) := by
      refine addLine_eq a fun q hq => h q (hq ▸ List.mem_cons_self) fun he => hne ?_
      rw [addLines_cons, hq, addLine, he]
      rfl
    rw [followed_cons, List.flatMap_cons, List.flatMap_append, collectIfRead_append, addLines_cons,
      ← hline]
    cases hb : addLine (resolve fs env depth) a line with
    | error fault => rfl
    | ok b =>
      rw [addLines_cons, hb] at hne
      exact ih (fun q hq => h q (List.mem_cons_of_mem line hq)) b hne

/-- A filelist that is not endless gives what its reading holds, unless one that is opened for it
cannot be read: then the first of those is the fault. -/
theorem resolve_eq {depth : Nat} {path : Path} (hne : resolve fs env depth path ≠ .error .endless) :
    resolve fs env depth path =
      collectIfRead fs empty (opened fs env depth path) (reading fs env depth path) := by
  induction depth generalizing path with
  | zero => exact absurd rfl hne
  | succ depth ih =>
    rw [resolve] at hne ⊢
    rw [collectIfRead, opened, reading, firstUnreadable_cons]
    cases hp : fs.readText path with
    | error fault => rfl
    | ok text =>
      simp only [hp] at hne ⊢
      rw [references_followed]
      exact addLines_eq (fun q _ hq => ih hq) empty hne

end Filelist

end HdlLint
