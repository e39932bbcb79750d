import HdlLint.Proofs.Define.StartingName
import HdlLint.Proofs.DefineTable.Thread
import HdlLint.Proofs.Program.Inputs
import HdlLint.Proofs.Run.Threading
import HdlLint.Verilog.Reader

/-!
# The macros that the files of a run start with

Each file of a run is parsed behind lines that define the macros in effect. All tables of a run have
their definitions under their own names, so a name that a file takes away last of all stands in no
table behind it (`not_mem_names_of_behindRemoval`). The line of another name can still define the
macro: a name from the command line or a filelist may hold a parenthesis or a blank, and so may an
escaped name of a source file. `predefines_ofPaths` says when this is so, and that it is never so
where all names end where the names of macros do.
-/

namespace HdlLint

namespace Tree

/-- The definitions that the directives of a tree give, in order. -/
def definitions (t : Tree) : List Define :=
  t.directivesInOrder.filterMap Directive.definition?

/-- Whether the last directive of a tree that decides what a name stands for takes it away. -/
def takesAway (t : Tree) (name : String) : Bool :=
  (t.directivesInOrder.filter (Directive.concerns name)).getLast?.any (Directive.removes name)

end Tree

namespace DefineTable

theorem isKeyed_ofSequence (ds : List Define) : (ofSequence ds).IsKeyed := by
  induction ds using List.reverseRecOn with
  | nil => exact nofun
  | append_singleton ds d ih =>
    rw [ofSequence_append]
    exact Directive.isKeyed_define ih d

theorem mem_names_ofSequence {ds : List Define} {name : String}
    (h : name ∈ (ofSequence ds).names) : ∃ d ∈ ds, d.identifier = name := by
  rw [names_ofSequence, List.mem_eraseDups] at h
  exact List.mem_map.mp h

/-- A name behind a tree was there in front of it, or one of its directives defines it. -/
theorem mem_names_thread {table : DefineTable} {t : Tree} {name : String}
    (h : name ∈ (table.thread t).names) :
    name ∈ table.names ∨ ∃ d ∈ t.definitions, d.identifier = name := by
  have hget : (table.thread t).get? name ≠ none := fun hnone => OrderedTable.get?_eq_none_iff.mp hnone h
  rw [thread_eq_foldl, Directive.get?_foldl_apply] at hget
  cases hlast : (t.directivesInOrder.filter (Directive.concerns name)).getLast? with
  | none =>
    rw [hlast] at hget
    exact .inl (Decidable.not_not.mp fun hn => hget (OrderedTable.get?_eq_none_iff.mpr hn))
  | some d =>
    rw [hlast] at hget
    obtain ⟨hmem, hconcerns⟩ := List.mem_filter.mp (List.mem_of_getLast? hlast)
    obtain ⟨definition, hd⟩ := Option.ne_none_iff_exists'.mp hget
    refine .inr ⟨definition, List.mem_filterMap.mpr ⟨d, hmem, hd⟩, ?_⟩
    cases d with
    | define n arguments body =>
      obtain rfl := Option.some.inj hd
      exact of_decide_eq_true hconcerns
    | _ => cases hd

theorem not_mem_names_thread {table : DefineTable} {t : Tree} {name : String}
    (h : t.takesAway name = true) : name ∉ (table.thread t).names := by
  rw [← OrderedTable.get?_eq_none_iff, thread_eq_foldl, Directive.get?_foldl_apply]
  rw [Tree.takesAway] at h
  cases hlast : (t.directivesInOrder.filter (Directive.concerns name)).getLast? with
  | none =>
    rw [hlast] at h
    cases h
  | some d =>
    rw [hlast] at h
    cases d with
    | define n arguments body => cases h
    | _ => rfl

end DefineTable

/-- A way of parsing files in which the definitions behind a file are those in front of it, threaded
through its tree. -/
def ParseFile.Threads (parse : ParseFile) : Prop :=
  ∀ path defines parsed, parse path defines = .ok parsed → parsed.defines = defines.thread parsed.tree

theorem ParsedSource.threads_read (fs : FileSystem) (parser : SourceParser) (includes : List Path)
    (ignoreInclude : Bool) :
    ParseFile.Threads fun path defines => read fs parser path defines includes ignoreInclude := by
  intro path defines parsed h
  simp only [read] at h
  split at h
  · cases h
  · cases h
  · split at h
    · split at h <;> cases h
    · split at h
      · cases h
      · exact Except.ok.inj h ▸ rfl

namespace Run

/-- The definitions that the directives of some files give. -/
def definitionsRead (parse : ParseFile) (calls : List ParseCall) : List Define :=
  calls.flatMap fun call =>
    match parse call.path call.defines with
    | .ok parsed => parsed.tree.definitions
    | .error _ => []

/-- Whether a file is parsed next behind one that takes a name away: the files between them cannot
be parsed. -/
def BehindRemoval (parse : ParseFile) (calls : List ParseCall) (name : String)
    (next : ParseCall) : Prop :=
  ∃ before call failing after parsed,
    calls = before ++ call :: (failing ++ next :: after) ∧
    parse call.path call.defines = .ok parsed ∧
    (∀ c ∈ failing, returned? parse c = none) ∧ parsed.tree.takesAway name = true

variable {linter : Linter} {parse : ParseFile} {defines : DefineTable} {paths : List Path}

theorem isKeyed_of_mem_calls (hparse : parse.Threads) (hseed : defines.IsKeyed) :
    ∀ call ∈ (ofPaths linter parse defines paths).calls, call.defines.IsKeyed := by
  refine forall_calls_ofPaths hseed fun call _ parsed hp hkeyed => ?_
  rw [hparse _ _ _ hp, DefineTable.thread_eq_foldl]
  exact Directive.isKeyed_foldl_apply _ hkeyed

/-- Every name in front of a file is a name in front of all files or of a definition in a file that
was parsed. -/
theorem exists_define_of_mem_calls (hparse : parse.Threads) {given : List Define}
    (hseed : ∀ name ∈ defines.names, ∃ d ∈ given, d.identifier = name)
    (hgiven : definitionsRead parse (ofPaths linter parse defines paths).calls ⊆ given) :
    ∀ call ∈ (ofPaths linter parse defines paths).calls, ∀ name ∈ call.defines.names,
      ∃ d ∈ given, d.identifier = name := by
  refine forall_calls_ofPaths (P := fun table => ∀ name ∈ table.names, ∃ d ∈ given, d.identifier = name)
    hseed fun call hcall parsed hp hnames name hname => ?_
  rw [hparse _ _ _ hp] at hname
  rcases DefineTable.mem_names_thread hname with hname | ⟨d, hd, hname⟩
  · exact hnames name hname
  · refine ⟨d, hgiven (List.mem_flatMap.mpr ⟨call, hcall, ?_⟩), hname⟩
    simp only [hp]
    exact hd

/-- A name that a file takes away last of all does not stand in the table of the next one. -/
theorem not_mem_names_of_behindRemoval (hparse : parse.Threads) {name : String} {next : ParseCall}
    (hnext : BehindRemoval parse (ofPaths linter parse defines paths).calls name next) :
    name ∉ next.defines.names := by
  obtain ⟨before, call, failing, after, parsed, hcalls, hp, hfailing, htakes⟩ := hnext
  have hsplit : (ofPaths linter parse defines paths).calls =
      (before ++ call :: failing) ++ next :: after := by
    rw [hcalls, List.append_assoc, List.cons_append]
  have hget : (ofPaths linter parse defines paths).calls[(before ++ call :: failing).length]? =
      some next := by
    rw [hsplit, List.getElem?_append_right (Nat.le_refl _), Nat.sub_self]
    rfl
  rw [defines_calls_ofPaths defines paths _ next hget, hsplit, List.take_left' rfl,
    tableBehind_append_unparsed hp hfailing, hparse _ _ _ hp]
  exact DefineTable.not_mem_names_thread htakes

theorem mem_calls_of_behindRemoval {calls : List ParseCall} {name : String} {next : ParseCall}
    (hnext : BehindRemoval parse calls name next) : next ∈ calls := by
  obtain ⟨before, call, failing, after, parsed, rfl, -, -, -⟩ := hnext
  simp

end Run

namespace Program

open CommandLine (Options)

variable {h : Host} {o : Options} {i : Filelist}

/-- How the files of a run are parsed by some parser. -/
def readWith (h : Host) (o : Options) (i : Filelist) (parser : SourceParser) : ParseFile :=
  fun path defines => ParsedSource.read h.files parser path defines i.includes o.ignoreInclude

/-- The macros that a parser is given for a file of a run: those that its lines define, in order. -/
def predefined (o : Options) (i : Filelist) (call : ParseCall) : List String :=
  (ParsedSource.request call.path call.defines i.includes o.ignoreInclude).predefines.map
    Define.startingName

/-- In a run the lines in front of a file define what the names of its table start with, and each of
these names is one of the command line, of a filelist or of a file that was parsed. Behind a file
that takes a name away last of all, the macro is defined just if another name of the table starts
with it. So, where all names are as long as their macros, none of the lines behind defines what was
taken away, and no two of them define one macro. -/
theorem predefined_ofPaths (hi : inputs h o = .ok i) (linter : Linter) (parser : SourceParser)
    (paths : List Path) :
    let parse := readWith h o i parser
    let calls := (Run.ofPaths linter parse i.defines paths).calls
    let given := definitions h o ++ Run.definitionsRead parse calls
    (∀ call ∈ calls, predefined o i call = call.defines.names.map Define.startingName ∧
      ∀ name ∈ call.defines.names, ∃ d ∈ given, d.identifier = name) ∧
    (∀ name next, Run.BehindRemoval parse calls name next →
      name ∉ next.defines.names ∧ (name ∈ predefined o i next ↔
        ∃ other ∈ next.defines.names, other ≠ name ∧ Define.startingName other = name)) ∧
    ((∀ d ∈ given, Define.startingName d.identifier = d.identifier) →
      (∀ name next, Run.BehindRemoval parse calls name next → name ∉ predefined o i next) ∧
      ∀ call ∈ calls, (predefined o i call).Nodup) := by
  intro parse calls given
  have hparse : parse.Threads := ParsedSource.threads_read _ _ _ _
  have hseed := defines_of_inputs hi
  have hkeyed : i.defines.IsKeyed := hseed ▸ DefineTable.isKeyed_ofSequence _
  have hpredefined : ∀ call ∈ calls, predefined o i call =
      call.defines.names.map Define.startingName := fun call hcall =>
    (Run.isKeyed_of_mem_calls hparse hkeyed call hcall).map_startingName_predefines _ _ _
  have hnames : ∀ call ∈ calls, ∀ name ∈ call.defines.names, ∃ d ∈ given, d.identifier = name := by
    refine Run.exists_define_of_mem_calls hparse (fun name hname => ?_) (List.subset_append_right _ _)
    rw [hseed] at hname
    obtain ⟨d, hd, hname⟩ := DefineTable.mem_names_ofSequence hname
    exact ⟨d, List.mem_append_left _ hd, hname⟩
  have hnext : ∀ name next, Run.BehindRemoval parse calls name next → name ∉ next.defines.names :=
    fun name next => Run.not_mem_names_of_behindRemoval hparse
  refine ⟨fun call hcall => ⟨hpredefined call hcall, hnames call hcall⟩,
    fun name next hbehind => ⟨hnext name next hbehind, ?_⟩, fun hplain => ?_⟩
  · rw [hpredefined next (Run.mem_calls_of_behindRemoval hbehind), List.mem_map]
    constructor
    · rintro ⟨other, hother, rfl⟩
      refine ⟨other, hother, fun he => ?_, rfl⟩
      exact hnext _ next hbehind (he ▸ hother)
    · rintro ⟨other, hother, -, hstart⟩
      exact ⟨other, hother, hstart⟩
  · have hsame : ∀ call ∈ calls, predefined o i call = call.defines.names := by
      intro call hcall
      rw [hpredefined call hcall]
      refine (List.map_congr_left fun name hname => ?_).trans (List.map_id _)
      obtain ⟨d, hd, rfl⟩ := hnames call hcall name hname
      exact hplain d hd
    refine ⟨fun name next hbehind => ?_, fun call hcall => ?_⟩
    · rw [hsame next (Run.mem_calls_of_behindRemoval hbehind)]
      exact hnext name next hbehind
    · rw [hsame call hcall]
      exact call.defines.nodup

/-- Files of which the first one takes a macro away, and a filelist with another one. -/
def undefSample : Host where
  files :=
    { current := ["w"]
      entries := [(["w", "a.sv"], .file "\x60undef W\n".toUTF8.toList),
        (["w", "b.sv"], .file []),
        (["w", "c.f"], .file "+define+V=2\n".toUTF8.toList)] }
  environment := ⟨[]⟩
  plugins := ⟨[]⟩
  parser := Verilog.reader

/-- Options with the filelist and one more definition. -/
def undefOptions (definition : String) : Options :=
  { filelists := [Path.ofString "c.f"], defines := [definition] }

/-- The inputs that the options give. -/
def undefInputs (definition : String) : Filelist :=
  (inputs undefSample (undefOptions definition)).toOption.getD Filelist.empty

/-- How the two files are parsed. -/
def undefParse (definition : String) : ParseFile :=
  readWith undefSample (undefOptions definition) (undefInputs definition)
    (Verilog.reader undefSample.files)

/-- What is parsed of the two files. -/
def undefCalls (definition : String) : List ParseCall :=
  (Run.ofPaths (.empty ⟨∅, []⟩) (undefParse definition) (undefInputs definition).defines
    (["a.sv", "b.sv"].map Path.ofString)).calls

theorem inputs_undefSample {definition : String}
    (h : (inputs undefSample (undefOptions definition)).toOption.isSome = true) :
    inputs undefSample (undefOptions definition) = .ok (undefInputs definition) := by
  rw [undefInputs]
  cases hi : inputs undefSample (undefOptions definition) with
  | error fault =>
    rw [hi] at h
    cases h
  | ok i => rfl

theorem exists_behindRemoval {parse : ParseFile} {calls : List ParseCall} {name : String}
    (hlen : calls.length = 2) (htakes : (calls.head?.any fun call =>
      match parse call.path call.defines with
      | .ok parsed => parsed.tree.takesAway name
      | .error _ => false) = true) :
    ∃ next, calls[1]? = some next ∧ Run.BehindRemoval parse calls name next := by
  obtain ⟨call, next, rfl⟩ := List.length_eq_two.mp hlen
  refine ⟨next, rfl, [], call, [], [], ?_⟩
  cases hp : parse call.path call.defines with
  | error e =>
    rw [List.head?_cons, Option.any_some, hp] at htakes
    cases htakes
  | ok parsed =>
    rw [List.head?_cons, Option.any_some, hp] at htakes
    exact ⟨parsed, rfl, rfl, nofun, htakes⟩

/-- A macro of the command line is not defined behind the file that takes it away. -/
theorem predefined_ofPaths_undef :
    inputs undefSample (undefOptions "W=1") = .ok (undefInputs "W=1") ∧
      ∃ next, Run.BehindRemoval (undefParse "W=1") (undefCalls "W=1") "W" next ∧
        "W" ∉ predefined (undefOptions "W=1") (undefInputs "W=1") next := by
  have hi := @inputs_undefSample "W=1" (by decide +kernel)
  obtain ⟨next, -, hnext⟩ := @exists_behindRemoval (undefParse "W=1") (undefCalls "W=1") "W"
    (by decide +kernel) (by decide +kernel)
  have hplain : ∀ d ∈ definitions undefSample (undefOptions "W=1") ++
      Run.definitionsRead (undefParse "W=1") (undefCalls "W=1"),
      Define.startingName d.identifier = d.identifier := by decide +kernel
  obtain ⟨-, -, hruns⟩ := predefined_ofPaths hi (.empty ⟨∅, []⟩) (Verilog.reader undefSample.files)
    (["a.sv", "b.sv"].map Path.ofString)
  exact ⟨hi, next, hnext, (hruns hplain).1 "W" next hnext⟩

/-- A macro that is given with its arguments is defined behind the file that takes it away. -/
theorem predefined_behind_undef :
    inputs undefSample (undefOptions "W(x)=x") = .ok (undefInputs "W(x)=x") ∧
      ∃ next, Run.BehindRemoval (undefParse "W(x)=x") (undefCalls "W(x)=x") "W" next ∧
        "W" ∈ predefined (undefOptions "W(x)=x") (undefInputs "W(x)=x") next := by
  have hi := @inputs_undefSample "W(x)=x" (by decide +kernel)
  obtain ⟨next, hget, hnext⟩ := @exists_behindRemoval (undefParse "W(x)=x") (undefCalls "W(x)=x") "W"
    (by decide +kernel) (by decide +kernel)
  have hmacro : ((undefCalls "W(x)=x")[1]?.any fun call =>
      "W" ∈ predefined (undefOptions "W(x)=x") (undefInputs "W(x)=x") call) = true := by
    decide +kernel
  rw [hget, Option.any_some] at hmacro
  exact ⟨hi, next, hnext, of_decide_eq_true hmacro⟩

end Program

end HdlLint
