import HdlLint.Proofs.Run.Step

/-!
# The definitions that reach the files of a run

The definitions that are handed on from file to file of a run (`tableBehind`). Files that are left
out and files that cannot be parsed hand on what they got, so neither can be noticed by the files
behind them (`ofPaths_filter`, `calls_ofPaths_append`); `ofPaths_threads` puts it together.
-/

namespace HdlLint.Run

variable {linter : Linter} {parse : ParseFile}

/-- The definitions behind a file that a parser was given, if it could parse it. -/
def returned? (parse : ParseFile) (call : ParseCall) : Option DefineTable :=
  match parse call.path call.defines with
  | .ok parsed => some parsed.defines
  | .error _ => none

/-- The definitions behind some files: those behind the last one that could be parsed, or those in
front of all. -/
def tableBehind (parse : ParseFile) (seed : DefineTable) (calls : List ParseCall) : DefineTable :=
  (calls.filterMap (returned? parse)).getLast?.getD seed

@[simp] theorem tableBehind_nil (seed : DefineTable) : tableBehind parse seed [] = seed := rfl

theorem tableBehind_cons_unparsed {path : Path} {defines : DefineTable} {e : ParseFailure}
    (h : parse path defines = .error e) (seed : DefineTable) (calls : List ParseCall) :
    tableBehind parse seed (⟨path, defines⟩ :: calls) = tableBehind parse seed calls := by
  have hr : returned? parse ⟨path, defines⟩ = none := by simp only [returned?, h]
  rw [tableBehind, List.filterMap_cons_none hr, tableBehind]

theorem tableBehind_cons_parsed {path : Path} {defines : DefineTable} {parsed : ParsedSource}
    (h : parse path defines = .ok parsed) (seed : DefineTable) (calls : List ParseCall) :
    tableBehind parse seed (⟨path, defines⟩ :: calls) = tableBehind parse parsed.defines calls := by
  have hr : returned? parse ⟨path, defines⟩ = some parsed.defines := by simp only [returned?, h]
  rw [tableBehind, List.filterMap_cons_some hr, tableBehind, List.getLast?_cons]
  rfl

/-- Files that cannot be parsed leave the definitions behind the last one that could be. -/
theorem tableBehind_append_unparsed {call : ParseCall} {parsed : ParsedSource}
    (hp : parse call.path call.defines = .ok parsed) {failing : List ParseCall}
    (hfailing : ∀ c ∈ failing, returned? parse c = none) (seed : DefineTable)
    (before : List ParseCall) :
    tableBehind parse seed (before ++ call :: failing) = parsed.defines := by
  have hr : returned? parse call = some parsed.defines := by simp only [returned?, hp]
  rw [tableBehind, List.filterMap_append, List.filterMap_cons_some hr,
    List.filterMap_eq_nil_iff.mpr hfailing, List.getLast?_append]
  rfl

/-! ## Whole runs -/

theorem outcome_ofPaths (h : Steady linter parse) (defines : DefineTable) (paths : List Path) :
    ∃ passed, (ofPaths linter parse defines paths).outcome = .ok passed := by
  induction paths generalizing defines with
  | nil => exact ⟨true, rfl⟩
  | cons path paths ih =>
    rcases ofPaths_step h defines path with ⟨-, hs⟩ | ⟨e, -, -, hs⟩ | ⟨parsed, broken, -, -, -, hs⟩
    · obtain ⟨passed, hp⟩ := ih defines
      exact ⟨passed, by rw [hs, outcome_skip, hp]⟩
    · obtain ⟨passed, hp⟩ := ih defines
      exact ⟨false && passed, by rw [hs, outcome_behind, hp]; rfl⟩
    · obtain ⟨passed, hp⟩ := ih parsed.defines
      exact ⟨broken.isEmpty && passed, by rw [hs, outcome_behind, hp]; rfl⟩

theorem path_calls_ofPaths (h : Steady linter parse) (defines : DefineTable) (paths : List Path) :
    (ofPaths linter parse defines paths).calls.map ParseCall.path =
      paths.filter linter.config.keeps := by
  induction paths generalizing defines with
  | nil => rfl
  | cons path paths ih =>
    rcases ofPaths_step h defines path with ⟨hk, hs⟩ | ⟨e, hk, -, hs⟩ | ⟨parsed, _, hk, -, -, hs⟩
    · rw [hs, List.filter_cons_of_neg (by simp [hk]), calls_skip, ih]
    · rw [hs, List.filter_cons_of_pos hk, calls_behind, List.map_cons, ih]
    · rw [hs, List.filter_cons_of_pos hk, calls_behind, List.map_cons, ih]

theorem skipped_ofPaths (h : Steady linter parse) (defines : DefineTable) (paths : List Path) :
    (ofPaths linter parse defines paths).skipped =
      paths.filter fun path => !linter.config.keeps path := by
  induction paths generalizing defines with
  | nil => rfl
  | cons path paths ih =>
    rcases ofPaths_step h defines path with ⟨hk, hs⟩ | ⟨e, hk, -, hs⟩ | ⟨parsed, _, hk, -, -, hs⟩
    · rw [hs, List.filter_cons_of_pos (by simp [hk]), skipped_skip, ih]
    · rw [hs, List.filter_cons_of_neg (by simp [hk]), skipped_behind, ih]
    · rw [hs, List.filter_cons_of_neg (by simp [hk]), skipped_behind, ih]

/-- A run over the files that are not left out is the same run, apart from what it says about the
files that are. -/
theorem ofPaths_filter (h : Steady linter parse) (defines : DefineTable) (paths : List Path) :
    ofPaths linter parse defines (paths.filter linter.config.keeps) =
      { ofPaths linter parse defines paths with skipped := [] } := by
  induction paths generalizing defines with
  | nil => rfl
  | cons path paths ih =>
    rcases ofPaths_step h defines path with ⟨hk, hs⟩ | ⟨e, hk, -, hs⟩ | ⟨parsed, _, hk, -, -, hs⟩
    · rw [List.filter_cons_of_neg (by simp [hk]), ih, hs, skip]
    · rw [List.filter_cons_of_pos hk, hs, hs, ih, behind, behind]
    · rw [List.filter_cons_of_pos hk, hs, hs, ih, behind, behind]

/-- The files behind others are parsed as in a run of their own that starts with the definitions
behind those. -/
theorem calls_ofPaths_append (h : Steady linter parse) (defines : DefineTable)
    (paths others : List Path) :
    (ofPaths linter parse defines (paths ++ others)).calls =
      (ofPaths linter parse defines paths).calls ++
        (ofPaths linter parse
          (tableBehind parse defines (ofPaths linter parse defines paths).calls) others).calls := by
  induction paths generalizing defines with
  | nil => rfl
  | cons path paths ih =>
    rw [List.cons_append]
    rcases ofPaths_step h defines path with ⟨-, hs⟩ | ⟨e, -, hp, hs⟩ | ⟨parsed, _, -, hp, -, hs⟩
    · rw [hs, hs, calls_skip, calls_skip, ih]
    · rw [hs, hs, calls_behind, calls_behind, List.cons_append,
        tableBehind_cons_unparsed hp, ih]
    · rw [hs, hs, calls_behind, calls_behind, List.cons_append,
        tableBehind_cons_parsed hp, ih]

theorem defines_calls_ofPaths (defines : DefineTable) (paths : List Path) (i : Nat)
    (call : ParseCall) (hc : (ofPaths linter parse defines paths).calls[i]? = some call) :
    call.defines =
      tableBehind parse defines ((ofPaths linter parse defines paths).calls.take i) := by
  induction paths generalizing defines i with
  | nil => cases hc
  | cons path paths ih =>
    cases turn linter parse defines path with
    | refused fault _ hs =>
      rw [hs] at hc
      cases hc
    | excluded _ hs =>
      rw [hs, calls_skip] at hc ⊢
      exact ih defines i hc
    | faulty fault _ _ hs | stopped _ fault _ _ _ hs =>
      rw [hs] at hc ⊢
      cases i with
      | zero => cases hc; rfl
      | succ i => cases hc
    | unparsed e _ hp hs =>
      rw [hs, calls_behind] at hc ⊢
      cases i with
      | zero => cases hc; rfl
      | succ i =>
        rw [List.take_succ_cons, tableBehind_cons_unparsed hp]
        exact ih defines i hc
    | checked parsed broken _ hp _ hs =>
      rw [hs, calls_behind] at hc ⊢
      cases i with
      | zero => cases hc; rfl
      | succ i =>
        rw [List.take_succ_cons, tableBehind_cons_parsed hp]
        exact ih parsed.defines i hc

/-- What holds of the definitions in front of all files, and goes from those in front of each file
that is parsed to those behind it, holds in front of each file. -/
theorem forall_calls_ofPaths {P : DefineTable → Prop} {defines : DefineTable} {paths : List Path}
    (hseed : P defines)
    (hstep : ∀ call ∈ (ofPaths linter parse defines paths).calls, ∀ parsed,
      parse call.path call.defines = .ok parsed → P call.defines → P parsed.defines) :
    ∀ call ∈ (ofPaths linter parse defines paths).calls, P call.defines := by
  induction paths generalizing defines with
  | nil => exact nofun
  | cons path paths ih =>
    cases turn linter parse defines path with
    | refused fault _ hs =>
      rw [hs]
      exact nofun
    | excluded _ hs =>
      rw [hs, calls_skip] at hstep ⊢
      exact ih hseed hstep
    | faulty fault _ _ hs | stopped _ fault _ _ _ hs =>
      rw [hs]
      exact List.forall_mem_singleton.mpr hseed
    | unparsed e _ hp hs =>
      rw [hs, calls_behind] at hstep ⊢
      exact List.forall_mem_cons.mpr
        ⟨hseed, ih hseed fun call hc => hstep call (List.mem_cons_of_mem _ hc)⟩
    | checked parsed broken _ hp _ hs =>
      rw [hs, calls_behind] at hstep ⊢
      exact List.forall_mem_cons.mpr ⟨hseed, ih (hstep _ List.mem_cons_self parsed hp hseed)
        fun call hc => hstep call (List.mem_cons_of_mem _ hc)⟩

/-- A run goes to its end. It parses the files that are not left out, each once and in order, each
one with the definitions behind the last earlier one that could be parsed. Files that are left out
show in the warnings alone: another list with the same remaining files, such as one without some
of those that are left out, is parsed, judged and reported on alike. A file that cannot be parsed
can be taken away without changing what the other ones are parsed with. -/
theorem ofPaths_threads (h : Steady linter parse) (seed : DefineTable) (paths : List Path) :
    let run := ofPaths linter parse seed paths
    (∃ passed, run.outcome = .ok passed) ∧
    run.calls.map ParseCall.path = paths.filter linter.config.keeps ∧
    (∀ i call, run.calls[i]? = some call →
      call.defines = tableBehind parse seed (run.calls.take i)) ∧
    run.skipped = paths.filter (fun path => !linter.config.keeps path) ∧
    (∀ others, others.filter linter.config.keeps = paths.filter linter.config.keeps →
      let other := ofPaths linter parse seed others
      other.calls = run.calls ∧ other.outcome = run.outcome ∧ other.reports = run.reports) ∧
    ∀ before path after e, paths = before ++ path :: after → linter.config.keeps path = true →
      let calls := (ofPaths linter parse seed before).calls
      let call : ParseCall := ⟨path, tableBehind parse seed calls⟩
      parse call.path call.defines = .error e →
      ∃ later, run.calls = calls ++ call :: later ∧
        (ofPaths linter parse seed (before ++ after)).calls = calls ++ later := by
  refine ⟨outcome_ofPaths h seed paths, path_calls_ofPaths h seed paths,
    defines_calls_ofPaths seed paths, skipped_ofPaths h seed paths, ?_, ?_⟩
  · intro others ho
    have hf := ofPaths_filter h seed others
    rw [ho, ofPaths_filter h seed paths] at hf
    injection hf with hc hr _ ho
    exact ⟨hc.symm, ho.symm, hr.symm⟩
  · rintro before path after e rfl hk calls call he
    refine ⟨(ofPaths linter parse call.defines after).calls, ?_, calls_ofPaths_append h seed before after⟩
    rw [calls_ofPaths_append h]
    refine congrArg (calls ++ ·) ?_
    rcases ofPaths_step h call.defines path with ⟨hn, -⟩ | ⟨_, -, -, hs⟩ | ⟨parsed, _, -, hp, -, -⟩
    · rw [hk] at hn; cases hn
    · exact congrArg Run.calls (hs after)
    · rw [hp] at he; cases he

/-! ## A run over four files -/

/-- A linter that leaves out the files of a directory and whose one rule forbids modules. -/
def sampleLinter : Linter :=
  ⟨⟨OrderedTable.empty, ["gen/"]⟩, [⟨0,
    ⟨fun _ node => .ok (.verdict (if node.hasKind .moduleDeclaration then .fail else .pass)),
      .ok (.text "no_module"), .ok (.text "use an interface"), .ok .nothing⟩⟩],
    ["no_module"], OrderedTable.ofList [("no_module", "sample")]⟩

/-- A parser that finds an error in one file, and in each other one a definition of its path. -/
def sampleParse : ParseFile := fun path defines =>
  if path = ⟨.relative, ["bad.sv"]⟩ then .error (.error { kind := .parse, path := path })
  else .ok ⟨path, .absent, defines.define { identifier := path.toString }⟩

theorem steady_sample : Steady sampleLinter sampleParse where
  patterns p hp := by
    rw [show sampleLinter.config.excludePaths = ["gen/"] from rfl, List.mem_singleton] at hp
    subst hp
    have h : (Pattern.check "gen/").toOption = some () := by decide +kernel
    cases hc : Pattern.check "gen/" with
    | error fault =>
      rw [hc] at h
      cases h
    | ok _ => rfl
  rules r hr := by
    rw [sampleLinter, List.mem_singleton] at hr
    subst hr
    exact ⟨fun _ _ => ⟨_, rfl, by split <;> rfl⟩, ⟨_, rfl⟩, ⟨_, rfl⟩⟩
  parser path defines fault := by
    unfold sampleParse
    split <;> simp

/-- Of four files the second one is left out and the third one cannot be parsed: the last one is
parsed with the definitions behind the first one. -/
theorem ofPaths_threads_sample :
    Steady sampleLinter sampleParse ∧
      let run := ofPaths sampleLinter sampleParse ∅
        (["a.sv", "gen/b.sv", "bad.sv", "c.sv"].map Path.ofString)
      run.calls.map ParseCall.path = ["a.sv", "bad.sv", "c.sv"].map Path.ofString ∧
        ∀ call, run.calls[2]? = some call → call.defines.names = ["a.sv"] := by
  have h := ofPaths_threads steady_sample ∅
    (["a.sv", "gen/b.sv", "bad.sv", "c.sv"].map Path.ofString)
  refine ⟨steady_sample, h.2.1.trans (by decide +kernel), fun call hc => ?_⟩
  rw [h.2.2.1 2 call hc]
  decide +kernel

end HdlLint.Run
