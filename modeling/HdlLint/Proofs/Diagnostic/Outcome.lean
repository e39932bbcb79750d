import HdlLint.Source

/-!
# What the diagnostics of a file decide

A parser answers with a tree and diagnostics, and only the first diagnostic that counts decides what
becomes of the file (`ParsedSource.read_eq`): the diagnostics that are no errors are passed over, and
so are the errors about included files where these are ignored. `ParsedSource.read_diagnostics` says
what this means for lists of diagnostics.
-/

namespace HdlLint

namespace Diagnostic

/-- Whether a diagnostic is an error of the file. -/
def counts (ignoreInclude : Bool) (d : Diagnostic) : Bool :=
  d.isError && !(ignoreInclude && d.kind = .includeFile)

theorem counts_eq_true_iff {ignoreInclude : Bool} {d : Diagnostic} :
    d.counts ignoreInclude = true ↔
      d.isError = true ∧ ¬(ignoreInclude = true ∧ d.kind = .includeFile) := by
  cases ignoreInclude <;> simp [counts]

theorem isError_of_counts {ignoreInclude : Bool} {d : Diagnostic}
    (h : d.counts ignoreInclude = true) : d.isError = true :=
  (counts_eq_true_iff.mp h).1

/-- Where errors about included files are ignored, the others count as they do everywhere. -/
theorem counts_true (d : Diagnostic) :
    d.counts true = (decide (d.kind ≠ .includeFile) && d.counts false) := by
  by_cases h : d.kind = .includeFile <;> simp [counts, h]

end Diagnostic

namespace Range

/-- A point is resolved to the outermost usage that it stems from. -/
theorem span_point (path : Path) (p : Location) :
    span path ⟨p, p⟩ = ⟨p.outermost.pathOr path, p.outermost.line, p.outermost.column, 1⟩ := by
  cases p with
  | text included offset line column =>
    have hlength : max (offset - offset) 1 = 1 := by omega
    exact congrArg (Span.mk _ line column) hlength
  | expansion offset usage => rfl

end Range

namespace ParsedSource

variable {fs : FileSystem} {parser : SourceParser} {path : Path} {defines : DefineTable}
  {includes : List Path} {ignoreInclude : Bool} {tree : Tree} {ds : List Diagnostic}

theorem firstError?_eq (ignoreInclude : Bool) (ds : List Diagnostic) :
    firstError? ignoreInclude ds =
      (ds.find? (Diagnostic.counts ignoreInclude)).map fun d => (d, d.kind) := by
  induction ds with
  | nil => rfl
  | cons d ds ih =>
    have hskip : (!d.isError || (ignoreInclude && decide (d.kind = .includeFile))) =
        !d.counts ignoreInclude := by
      rw [Diagnostic.counts, Bool.not_and, Bool.not_not]
    rw [firstError?, hskip, ih, List.find?_cons]
    cases d.counts ignoreInclude <;> rfl

/-- What becomes of a file with a tree, by the first diagnostic that counts. -/
def settle (fs : FileSystem) (path : Path) (defines : DefineTable) (tree : Tree) :
    Option Diagnostic → Except ParseFailure ParsedSource
  | some d => .error (.error (d.toError fs path d.kind))
  | none => .ok ⟨path, tree, defines.thread tree⟩

/-- Of the answer of a parser the tree and the first diagnostic that counts decide. -/
theorem read_eq (hfile : fs.isFile path = .ok true)
    (hparse : parser (request path defines includes ignoreInclude) = .ok (tree, ds)) :
    read fs parser path defines includes ignoreInclude =
      settle fs path defines tree (ds.find? (Diagnostic.counts ignoreInclude)) := by
  rw [read, hfile]
  dsimp only
  rw [hparse]
  dsimp only
  rw [firstError?_eq]
  cases ds.find? (Diagnostic.counts ignoreInclude) <;> rfl

/-- A file that a parser goes through is read unless one of the errors counts. -/
theorem exists_read_iff (hfile : fs.isFile path = .ok true)
    (hparse : parser (request path defines includes ignoreInclude) = .ok (tree, ds)) :
    (∃ parsed, read fs parser path defines includes ignoreInclude = .ok parsed) ↔
      ∀ d ∈ ds, d.isError = true → ignoreInclude = true ∧ d.kind = .includeFile := by
  have hnone : ds.find? (Diagnostic.counts ignoreInclude) = none ↔
      ∀ d ∈ ds, d.isError = true → ignoreInclude = true ∧ d.kind = .includeFile := by
    rw [List.find?_eq_none]
    refine forall₂_congr fun d _ => ?_
    rw [Diagnostic.counts_eq_true_iff, not_and, Classical.not_not]
  rw [read_eq hfile hparse, ← hnone]
  cases ds.find? (Diagnostic.counts ignoreInclude) with
  | none => exact ⟨fun _ => rfl, fun _ => ⟨_, rfl⟩⟩
  | some d => exact ⟨nofun, nofun⟩

/-- Reading a file for which a parser answers with a tree and diagnostics. -/
def answered (fs : FileSystem) (path : Path) (defines : DefineTable) (tree : Tree)
    (ignoreInclude : Bool) (ds : List Diagnostic) : Except ParseFailure ParsedSource :=
  read fs (fun _ => .ok (tree, ds)) path defines [] ignoreInclude

theorem answered_eq (hfile : fs.isFile path = .ok true) (defines : DefineTable) (tree : Tree)
    (ignoreInclude : Bool) (ds : List Diagnostic) :
    answered fs path defines tree ignoreInclude ds =
      settle fs path defines tree (ds.find? (Diagnostic.counts ignoreInclude)) :=
  read_eq hfile rfl

/-- What becomes of a file depends on the tree and the diagnostics that a parser answers with, and of
these on the errors alone, up to the first one that counts. Where errors about included files are
ignored, it is what would become of the file without them. The first diagnostic that counts is the
error of the file, with its kind and the place of the outermost usage that it stems from; without
one, the file is read, with the definitions behind its tree. An error is taken not to lie in a file
whose name holds a null character (`FileSystem.sourceLine`). -/
theorem read_diagnostics (hfile : fs.isFile path = .ok true) (defines : DefineTable) (tree : Tree) :
    (∀ parser includes ignoreInclude ds,
      parser (request path defines includes ignoreInclude) = .ok (tree, ds) →
      read fs parser path defines includes ignoreInclude =
        answered fs path defines tree ignoreInclude ds) ∧
    (∀ ds, answered fs path defines tree true ds =
      answered fs path defines tree false (ds.filter fun d => d.kind ≠ .includeFile)) ∧
    (∀ ignoreInclude ds ds', ds.filter Diagnostic.isError = ds'.filter Diagnostic.isError →
      answered fs path defines tree ignoreInclude ds =
        answered fs path defines tree ignoreInclude ds') ∧
    (∀ ignoreInclude before d after after', Diagnostic.counts ignoreInclude d = true →
      answered fs path defines tree ignoreInclude (before ++ d :: after) =
        answered fs path defines tree ignoreInclude (before ++ d :: after')) ∧
    (∀ ignoreInclude before d after, (∀ b ∈ before, Diagnostic.counts ignoreInclude b = false) →
      Diagnostic.counts ignoreInclude d = true →
      ∃ e, answered fs path defines tree ignoreInclude (before ++ d :: after) = .error (.error e) ∧
        e.kind = d.kind ∧ e.path = Path.ofString (d.place.outermost.pathOr path) ∧
        e.line = Diagnostic.nonzero? d.place.outermost.line ∧
        e.column = Diagnostic.nonzero? d.place.outermost.column) ∧
    ∀ ignoreInclude ds, (∀ d ∈ ds, Diagnostic.counts ignoreInclude d = false) →
      answered fs path defines tree ignoreInclude ds = .ok ⟨path, tree, defines.thread tree⟩ := by
  have hsettle := answered_eq hfile defines tree
  refine ⟨fun parser includes ignoreInclude ds hparse => ?_, fun ds => ?_,
    fun ignoreInclude ds ds' hsame => ?_, fun ignoreInclude before d after after' hd => ?_,
    fun ignoreInclude before d after hbefore hd => ?_, fun ignoreInclude ds hds => ?_⟩
  · rw [hsettle, read_eq hfile hparse]
  · rw [hsettle, hsettle, List.find?_filter]
    refine congrArg (fun p => settle fs path defines tree (ds.find? p)) (funext fun d => ?_)
    rw [Diagnostic.counts_true, Bool.decide_and, Bool.decide_eq_true, Bool.decide_eq_true]
  · -- a diagnostic that counts is an error, so it is found among the errors
    have herrors : ∀ ds : List Diagnostic, ds.find? (Diagnostic.counts ignoreInclude) =
        (ds.filter Diagnostic.isError).find? (Diagnostic.counts ignoreInclude) := by
      intro ds
      rw [List.find?_filter]
      congr 1
      funext d
      cases hd : d.counts ignoreInclude with
      | true => rw [Diagnostic.isError_of_counts hd]; rfl
      | false => simp
    rw [hsettle, hsettle, herrors ds, hsame, ← herrors ds']
  · rw [hsettle, hsettle, List.find?_append, List.find?_append, List.find?_cons_of_pos hd,
      List.find?_cons_of_pos hd]
  · have hnone : before.find? (Diagnostic.counts ignoreInclude) = none :=
      List.find?_eq_none.mpr fun b hb => by rw [hbefore b hb]; nofun
    rw [hsettle, List.find?_append, hnone, Option.none_or, List.find?_cons_of_pos hd]
    refine ⟨_, rfl, rfl, ?_, ?_, ?_⟩ <;> rw [Diagnostic.toError, Range.span_point]
  · have hnone : ds.find? (Diagnostic.counts ignoreInclude) = none :=
      List.find?_eq_none.mpr fun d hd => by rw [hds d hd]; nofun
    rw [hsettle, hnone, settle]

/-- A warning and a missing included file come before a macro whose expansion breaks the grammar: the
file has the error of the usage, and without it the file is read. -/
theorem read_diagnostics_sample :
    let fs : FileSystem := { current := ["w"], entries := [(["w", "a.sv"], .file [])] }
    let path : Path := ⟨.relative, ["a.sv"]⟩
    let tree : Tree := .node ⟨.compilationUnit, .origin, []⟩ []
    let warning : Diagnostic := ⟨"EmptyStatement", "", false, .text none 0 1 1⟩
    let missing : Diagnostic := ⟨"CouldNotOpenIncludeFile", "", true, .text none 9 2 1⟩
    let broken : Diagnostic := ⟨"ExpectedToken", "", true, .expansion 3 (.text none 30 3 4)⟩
    fs.isFile path = .ok true ∧ missing.counts true = false ∧ broken.counts true = true ∧
    answered fs path ∅ tree true [warning, missing, broken] =
      answered fs path ∅ tree false [warning, broken] ∧
    (∃ e, answered fs path ∅ tree true [warning, missing, broken] = .error (.error e) ∧
      e.kind = .parse ∧ e.line = some 3 ∧ e.column = some 4) ∧
    answered fs path ∅ tree true [warning, missing] =
      .ok ⟨path, tree, DefineTable.thread ∅ tree⟩ := by
  intro fs path tree warning missing broken
  have hfile : fs.isFile path = .ok true := rfl
  have hmissing : missing.kind = .includeFile := by decide +kernel
  have hbroken : broken.kind = .parse := by decide +kernel
  have hignored : missing.counts true = false := by simp [Diagnostic.counts, hmissing]
  have hcounts : broken.counts true = true := by simp [Diagnostic.counts, hbroken, broken]
  obtain ⟨-, hignore, -, -, hfirst, hnone⟩ := read_diagnostics hfile ∅ tree
  have hbefore : ∀ b ∈ [warning, missing], b.counts true = false :=
    List.forall_mem_cons.mpr ⟨rfl, List.forall_mem_singleton.mpr hignored⟩
  obtain ⟨e, he, hkind, -, hline, hcolumn⟩ := hfirst true [warning, missing] broken [] hbefore hcounts
  refine ⟨hfile, hignored, hcounts, ?_, ⟨e, he, hkind.trans hbroken, hline, hcolumn⟩,
    hnone true _ hbefore⟩
  rw [hignore]
  have hwarning : warning.kind ≠ .includeFile := by decide +kernel
  simp [hwarning, hmissing, hbroken]

end ParsedSource

end HdlLint
