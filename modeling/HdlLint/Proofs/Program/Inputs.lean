import HdlLint.Program
import HdlLint.Proofs.DefineTable.Sequence
import HdlLint.Proofs.Environment.Expansion
import HdlLint.Proofs.Filelist.Chain
import HdlLint.Proofs.Filelist.Reading
import HdlLint.Proofs.Text.Strip
import HdlLint.Verilog.Reader

/-!
# The inputs of a run

Where all filelists of a run can be resolved, its files and include directories are those of the
command line followed by those of its filelists, and its definitions are the table of all
definitions of the command line and, behind them, of all lines of the filelists in the order in
which they are read. A single filelist that names the filelists of a run, one a line, gives the
same inputs (`inputs_eq`).

* `addFilelists_eq`: the inputs from the reading of the filelists, or the first one that cannot be
  read;
* `addFilelists_eq_addLines`: filelists of the command line are added as lines that name them are.
-/

namespace HdlLint

open CommandLine (Options)

/-! ## Names on a line -/

/-- A name of a file as it can stand on a line of a filelist: no blanks around it, no references to
the environment. -/
structure PlainName (name : String) : Prop where
  strip : Text.strip name.toList = name.toList
  noReference : Environment.referencedNames name.toList = []

/-- The line that names a filelist. -/
def filelistLine (name : String) : List Char :=
  '-' :: 'f' :: ' ' :: name.toList

theorem PlainName.read_filelistLine {name : String} (h : PlainName name) (hne : name.toList ≠ [])
    (env : Environment) :
    FilelistLine.read env (filelistLine name) = .nested (Path.ofString name) := by
  have hsolid : Text.Solid (filelistLine name) := by
    refine ⟨nofun, fun c hc => ?_, fun c hc => ?_⟩
    · obtain rfl := Option.some.inj hc
      rfl
    · have hlast : (filelistLine name).getLast? = name.toList.getLast? :=
        List.getLast?_append_of_ne_nil ['-', 'f', ' '] hne
      rw [hlast, ← h.strip] at hc
      exact Text.last_strip _ c hc
  have hstrip : Text.strip (filelistLine name) = filelistLine name := by
    have := Text.strip_append [] hsolid (c := []) nofun
    simpa only [List.append_nil, List.nil_append, List.dropWhile_nil] using this
  have hexpand : env.expandChars (filelistLine name) = filelistLine name := by
    refine Environment.expandChars_of_unknown fun n hn => ?_
    have hplain : ∀ c ≠ '$', ∀ s,
        Environment.referencedNames (c :: s) = Environment.referencedNames s :=
      fun c hc s => Environment.referencedNames_plain (Environment.not_text_prefix_of_ne hc s)
    rw [filelistLine, hplain _ (by decide), hplain _ (by decide), hplain _ (by decide),
      h.noReference] at hn
    cases hn
  have hread : FilelistLine.read env (filelistLine name) =
      FilelistLine.ofExpanded (env.expandChars (filelistLine name)) := by
    rw [FilelistLine.read, hstrip]
    rfl
  have hincludes : Text.afterStart? "+incdir+".toList (filelistLine name) = none := rfl
  have hdefines : Text.afterStart? "+define+".toList (filelistLine name) = none := rfl
  have hnested : Text.afterStart? "-f ".toList (filelistLine name) = some name.toList := rfl
  simp only [hread, hexpand, FilelistLine.ofExpanded, hincludes, hdefines, hnested, h.strip,
    String.ofList_toList]

namespace Program

variable {h : Host}

/-! ## Adding filelists -/

/-- Filelists that are not endless add what their readings hold, unless one that is opened for them
cannot be read: then the first of those is the fault. -/
theorem addFilelists_eq {paths : List Path}
    (hne : ∀ path ∈ paths, Filelist.load h.files h.environment path ≠ .error .endless)
    (acc : Filelist) :
    addFilelists h acc paths =
      Filelist.collectIfRead h.files acc
        (paths.flatMap (Filelist.opened h.files h.environment (h.files.entries.length + 1)))
        (paths.flatMap (Filelist.reading h.files h.environment (h.files.entries.length + 1))) := by
  induction paths generalizing acc with
  | nil => exact congrArg Except.ok (Filelist.collect_nil acc).symm
  | cons path paths ih =>
    obtain ⟨hpath, hpaths⟩ := List.forall_mem_cons.mp hne
    have hfirst := congrArg (Except.map acc.merge) (Filelist.resolve_eq hpath)
    rw [Filelist.map_merge_collectIfRead, Filelist.merge_empty, ← Filelist.load] at hfirst
    rw [List.flatMap_cons, List.flatMap_cons, Filelist.collectIfRead_append, ← hfirst, addFilelists]
    cases Filelist.load h.files h.environment path with
    | error fault => rfl
    | ok list => exact ih hpaths (acc.merge list)

/-- Filelists of the command line are added as lines that name them are. -/
theorem addFilelists_eq_addLines {paths : List Path}
    (hload : ∀ path ∈ paths, ∃ list, Filelist.load h.files h.environment path = .ok list)
    (acc : Filelist) :
    addFilelists h acc paths =
      Filelist.addLines (Filelist.resolve h.files h.environment h.files.entries.length) acc
        (paths.map .nested) := by
  induction paths generalizing acc with
  | nil => rfl
  | cons path paths ih =>
    obtain ⟨⟨list, hlist⟩, hpaths⟩ := List.forall_mem_cons.mp hload
    rw [addFilelists, hlist, List.map_cons, Filelist.addLines_cons, Filelist.addLine,
      Filelist.resolve_of_load hlist]
    exact ih hpaths (acc.merge list)

theorem addFilelists_of_loads {paths : List Path} {lists : List Filelist}
    (hlists : paths.map (Filelist.load h.files h.environment) = lists.map .ok) (acc : Filelist) :
    addFilelists h acc paths = .ok (lists.foldl Filelist.merge acc) := by
  induction paths generalizing acc lists with
  | nil =>
    obtain rfl := List.map_eq_nil_iff.mp hlists.symm
    rfl
  | cons path paths ih =>
    obtain ⟨list, lists, rfl⟩ : ∃ list rest, lists = list :: rest := by
      cases lists with
      | nil => cases hlists
      | cons list rest => exact ⟨list, rest, rfl⟩
    rw [List.map_cons, List.map_cons, List.cons.injEq] at hlists
    rw [addFilelists, hlists.1, List.foldl_cons]
    exact ih hlists.2 (acc.merge list)

/-- Filelists can be added only if all of them can be resolved. -/
theorem exists_loads_of_addFilelists {acc list : Filelist} {paths : List Path}
    (hadd : addFilelists h acc paths = .ok list) :
    ∃ lists : List Filelist, paths.map (Filelist.load h.files h.environment) = lists.map .ok := by
  induction paths generalizing acc with
  | nil => exact ⟨[], rfl⟩
  | cons path paths ih =>
    rw [addFilelists] at hadd
    cases hload : Filelist.load h.files h.environment path with
    | error fault =>
      rw [hload] at hadd
      cases hadd
    | ok first =>
      rw [hload] at hadd
      obtain ⟨lists, hlists⟩ := ih hadd
      exact ⟨first :: lists, by rw [List.map_cons, hload, hlists, List.map_cons]⟩

theorem files_foldl_merge (acc : Filelist) (lists : List Filelist) :
    (lists.foldl Filelist.merge acc).files = acc.files ++ lists.flatMap Filelist.files := by
  induction lists generalizing acc with
  | nil => exact (List.append_nil _).symm
  | cons list lists ih => rw [List.foldl_cons, ih, Filelist.merge, List.flatMap_cons, List.append_assoc]

theorem includes_foldl_merge (acc : Filelist) (lists : List Filelist) :
    (lists.foldl Filelist.merge acc).includes = acc.includes ++ lists.flatMap Filelist.includes := by
  induction lists generalizing acc with
  | nil => exact (List.append_nil _).symm
  | cons list lists ih => rw [List.foldl_cons, ih, Filelist.merge, List.flatMap_cons, List.append_assoc]

/-! ## Inputs -/

/-- The lines of the filelists of a run, in the order in which they are read. -/
def filelistLines (h : Host) (o : Options) : List FilelistLine :=
  o.filelists.flatMap (Filelist.reading h.files h.environment (h.files.entries.length + 1))

/-- The definitions of a run in their order: those of the command line, then those of its
filelists. -/
def definitions (h : Host) (o : Options) : List Define :=
  o.defines.map Define.ofOption ++ (filelistLines h o).flatMap FilelistLine.definitions

variable {o : Options}

theorem inputs_of_loads {lists : List Filelist}
    (hlists : o.filelists.map (Filelist.load h.files h.environment) = lists.map .ok) :
    ∃ i, inputs h o = .ok i ∧
      i.files = o.files ++ lists.flatMap Filelist.files ∧
      i.includes = o.includes ++ lists.flatMap Filelist.includes ∧
      i.defines = DefineTable.ofSequence (definitions h o) := by
  have hok := addFilelists_of_loads hlists ⟨o.files, o.includes, definesOf o⟩
  refine ⟨_, hok, files_foldl_merge _ lists, includes_foldl_merge _ lists, ?_⟩
  have hne : ∀ path ∈ o.filelists, Filelist.load h.files h.environment path ≠ .error .endless := by
    intro path hpath he
    have hmem := List.mem_map_of_mem (f := Filelist.load h.files h.environment) hpath
    rw [hlists, he] at hmem
    obtain ⟨list, -, hlist⟩ := List.mem_map.mp hmem
    cases hlist
  have hread := addFilelists_eq hne ⟨o.files, o.includes, definesOf o⟩
  rw [hok, Filelist.collectIfRead] at hread
  split at hread
  · cases hread
  · rw [Except.ok.inj hread, definitions, DefineTable.ofSequence_append]
    rfl

/-- The definitions of a run are in one table, in their order. -/
theorem defines_of_inputs {i : Filelist} (hi : inputs h o = .ok i) :
    i.defines = DefineTable.ofSequence (definitions h o) := by
  obtain ⟨lists, hlists⟩ := exists_loads_of_addFilelists hi
  obtain ⟨i', hi', -, -, hdefines⟩ := inputs_of_loads hlists
  obtain rfl := Except.ok.inj (hi.symm.trans hi')
  exact hdefines

/-- The empty name is that of the current directory, and no filelist. -/
theorem ne_nil_of_load (hcurrent : h.files.at? h.files.current = some .directory) {name : String}
    {list : Filelist} (hload : Filelist.load h.files h.environment (Path.ofString name) = .ok list) :
    name.toList ≠ [] := by
  intro hnil
  obtain rfl := String.toList_eq_nil_iff.mp hnil
  obtain ⟨text, htext, -⟩ := Filelist.readText_of_resolve hload
  obtain ⟨bytes, -, hread, -⟩ := FileSystem.readText_eq_ok_iff.mp htext
  obtain ⟨place, hplace, hat⟩ := FileSystem.lookup_eq_ok_iff.mp (FileSystem.read_eq_ok_iff.mp hread)
  obtain ⟨-, -, hfollow⟩ := FileSystem.place_eq_ok_iff.mp hplace
  obtain rfl : h.files.current = place := Except.ok.inj hfollow
  rw [hcurrent] at hat
  cases hat

/-- A filelist that names filelists, one a line, stands for them on a command line. -/
theorem inputs_of_lines (hcurrent : h.files.at? h.files.current = some .directory)
    (hload : ∀ path ∈ o.filelists, ∃ list, Filelist.load h.files h.environment path = .ok list)
    {names : List String} (hnames : o.filelists = names.map Path.ofString)
    (hplain : ∀ name ∈ names, PlainName name) {root : Path} {text : List Char}
    (htext : h.files.readText root = .ok text)
    (hlines : Text.splitLines text = names.map filelistLine) :
    inputs h { o with filelists := [root] } = inputs h o := by
  have hread : Filelist.linesOf h.environment text = o.filelists.map .nested := by
    rw [Filelist.linesOf, hlines, hnames, List.map_map, List.map_map]
    refine List.map_congr_left fun name hname => ?_
    obtain ⟨list, hlist⟩ := hload _ (hnames ▸ List.mem_map_of_mem hname)
    exact (hplain name hname).read_filelistLine (ne_nil_of_load hcurrent hlist) _
  have hroot : Filelist.load h.files h.environment root = Filelist.addLines
      (Filelist.resolve h.files h.environment h.files.entries.length) Filelist.empty
        (o.filelists.map .nested) := by
    rw [Filelist.load_of_readText htext, hread]
  have hone : ∀ acc, addFilelists h acc [root] =
      (Filelist.load h.files h.environment root).map acc.merge := by
    intro acc
    rw [addFilelists]
    cases Filelist.load h.files h.environment root <;> rfl
  rw [inputs, inputs, hone, hroot, ← Filelist.addLines_eq_map_merge,
    addFilelists_eq_addLines hload]
  rfl

/-- The inputs of a run whose filelists can all be resolved: the files and include directories of
the command line with those of the filelists behind them, and the table of all definitions in their
order, in which each name stands where it came first and has its last definition. The run is over
these inputs. A filelist that names the filelists of the run, one a line, gives the same inputs. -/
theorem inputs_eq (h : Host) (o : Options)
    (hload : ∀ path ∈ o.filelists, ∃ list, Filelist.load h.files h.environment path = .ok list) :
    (∃ (lists : List Filelist) (i : Filelist),
      o.filelists.map (Filelist.load h.files h.environment) = lists.map .ok ∧
      inputs h o = .ok i ∧
      i.files = o.files ++ lists.flatMap Filelist.files ∧
      i.includes = o.includes ++ lists.flatMap Filelist.includes ∧
      i.defines.names = ((definitions h o).map Define.identifier).eraseDups ∧
      (∀ name, i.defines.get? name =
        ((definitions h o).filter (·.identifier = name)).getLast?) ∧
      ∀ c linter, loadPlugins h (Linter.ofConfig c) o.plugins = .ok linter →
        prepare h o c =
          .ok (Run.ofPaths linter (parseFile h o i.includes) i.defines i.files)) ∧
    (h.files.at? h.files.current = some .directory →
      ∀ (names : List String) (root : Path) (text : List Char),
        o.filelists = names.map Path.ofString →
        (∀ name ∈ names, PlainName name) →
        h.files.readText root = .ok text → Text.splitLines text = names.map filelistLine →
        inputs h { o with filelists := [root] } = inputs h o) := by
  refine ⟨?_, fun hcurrent names root text hnames hplain htext hlines =>
    inputs_of_lines hcurrent hload hnames hplain htext hlines⟩
  obtain ⟨lists, hlists⟩ : ∃ lists : List Filelist,
      o.filelists.map (Filelist.load h.files h.environment) = lists.map .ok := by
    refine ⟨o.filelists.map fun path =>
      (Filelist.load h.files h.environment path).toOption.getD Filelist.empty, ?_⟩
    rw [List.map_map]
    refine List.map_congr_left fun path hpath => ?_
    obtain ⟨list, hlist⟩ := hload path hpath
    rw [Function.comp_apply, hlist]
    rfl
  obtain ⟨i, hi, hfiles, hincludes, hdefines⟩ := inputs_of_loads hlists
  refine ⟨lists, i, hlists, hi, hfiles, hincludes, ?_, fun name => ?_, fun c linter hl => ?_⟩
  · rw [hdefines, DefineTable.names_ofSequence]
  · rw [hdefines, DefineTable.get?_ofSequence]
  · simp only [prepare, hl, hi]

/-- Files with two filelists, the first one naming a third between its definitions, and one filelist
that names these two. -/
def inputsSample : Host where
  files :=
    { current := ["w"]
      entries := [(["w", "a.f"], .file "a.sv\n+define+X=1\n-f c.f\n+incdir+ia\n".toUTF8.toList),
        (["w", "b.f"], .file "+define+Y=2\nb.sv\n".toUTF8.toList),
        (["w", "c.f"], .file "+define+Z+X=3\nc.sv\n".toUTF8.toList),
        (["w", "all.f"], .file "-f a.f\n-f b.f\n".toUTF8.toList)] }
  environment := ⟨[]⟩
  plugins := ⟨[]⟩
  parser := Verilog.reader

/-- Options with both filelists, a definition and an include directory. -/
def optionsSample : Options :=
  { filelists := ["a.f", "b.f"].map Path.ofString
    defines := ["Y=1"]
    includes := [Path.ofString "i"] }

theorem inputs_eq_sample :
    ∃ i, inputs inputsSample optionsSample = .ok i ∧
      i.files = ["a.sv", "c.sv", "b.sv"].map Path.ofString ∧
      i.includes = ["i", "ia"].map Path.ofString ∧
      i.defines.names = ["Y", "X", "Z"] ∧
      i.defines.get? "X" = some ⟨"X", [], some "3"⟩ ∧
      inputs inputsSample { optionsSample with filelists := [Path.ofString "all.f"] } =
        inputs inputsSample optionsSample := by
  have hsome : ∀ path ∈ optionsSample.filelists,
      (Filelist.load inputsSample.files inputsSample.environment path).toOption.isSome = true := by
    decide +kernel
  have hload : ∀ path ∈ optionsSample.filelists,
      ∃ list, Filelist.load inputsSample.files inputsSample.environment path = .ok list := by
    intro path hpath
    have hpath := hsome path hpath
    cases h : Filelist.load inputsSample.files inputsSample.environment path with
    | ok list => exact ⟨list, rfl⟩
    | error fault => rw [h] at hpath; cases hpath
  have htext : inputsSample.files.readText (Path.ofString "all.f") =
      .ok "-f a.f\n-f b.f\n".toList :=
    FileSystem.readText_eq_ok_iff.mpr ⟨_, _, rfl, Text.decode_toUTF8 _, by decide +kernel⟩
  have hplain : ∀ name ∈ ["a.f", "b.f"], PlainName name := fun name hname =>
    have hname : name = "a.f" ∨ name = "b.f" := by simpa using hname
    ⟨by rcases hname with rfl | rfl <;> decide +kernel,
      by rcases hname with rfl | rfl <;> decide +kernel⟩
  obtain ⟨⟨lists, i, hlists, hi, hfiles, hincludes, hnames, hget, -⟩, hsingle⟩ :=
    inputs_eq inputsSample optionsSample hload
  have hone := hsingle (by decide +kernel) ["a.f", "b.f"] (Path.ofString "all.f") _ rfl hplain htext
    (by decide +kernel)
  have hdefinitions : definitions inputsSample optionsSample =
      [⟨"Y", [], some "1"⟩, ⟨"X", [], some "1"⟩, ⟨"Z", [], none⟩, ⟨"X", [], some "3"⟩,
        ⟨"Y", [], some "2"⟩] := by decide +kernel
  have hrun : ((inputs inputsSample optionsSample).toOption.map fun i => (i.files, i.includes)) =
      some (["a.sv", "c.sv", "b.sv"].map Path.ofString, ["i", "ia"].map Path.ofString) := by
    decide +kernel
  rw [hi] at hrun
  obtain ⟨hf, hinc⟩ := Prod.mk.inj (Option.some.inj hrun)
  refine ⟨i, hi, hf, hinc, ?_, ?_, hone⟩
  · rw [hnames, hdefinitions]
    decide +kernel
  · rw [hget, hdefinitions]
    decide +kernel

end Program

end HdlLint
