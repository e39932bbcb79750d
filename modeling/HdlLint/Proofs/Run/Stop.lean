import HdlLint.Proofs.Run.Threading

/-!
# Where a run stops

A run over files that goes to its end over the first ones is the run over those, followed by a run
over the other ones that starts with the definitions behind them (`ofPaths_append`). A run that ends
early stops at one file, and all that it tells is what the run over the files before tells
(`Stop.ofPaths_eq`, `exists_stop`).
-/

namespace HdlLint.Run

variable {linter : Linter} {parse : ParseFile}

/-- A run behind another one that went to its end. -/
def append (a b : Run) : Run where
  calls := a.calls ++ b.calls
  reports := a.reports ++ b.reports
  skipped := a.skipped ++ b.skipped
  outcome :=
    match a.outcome with
    | .ok passed => b.outcome.map (passed && ·)
    | .error fault => .error fault

theorem done_append (run : Run) : done.append run = run := by
  obtain ⟨calls, reports, skipped, outcome⟩ := run
  cases outcome <;> rfl

theorem skip_append (path : Path) (a b : Run) : (skip path a).append b = skip path (a.append b) := rfl

theorem behind_append (call : ParseCall) (reports : List Report) (passed : Bool) (a b : Run) :
    (behind call reports passed a).append b = behind call reports passed (a.append b) := by
  obtain ⟨calls, reports', skipped, outcome⟩ := a
  simp only [behind, append, List.cons_append, List.append_assoc]
  cases outcome with
  | error fault => rfl
  | ok p =>
    cases b.outcome with
    | error fault => rfl
    | ok q => simp [Except.map, Bool.and_assoc]

theorem ok_of_behind {call : ParseCall} {reports : List Report} {passed p : Bool} {run : Run}
    (h : (behind call reports passed run).outcome = .ok p) : ∃ q, run.outcome = .ok q := by
  rw [outcome_behind] at h
  cases hr : run.outcome with
  | error fault => rw [hr] at h; cases h
  | ok q => exact ⟨q, rfl⟩

theorem ofPaths_append {defines : DefineTable} {before : List Path} {passed : Bool}
    (h : (ofPaths linter parse defines before).outcome = .ok passed) (rest : List Path) :
    ofPaths linter parse defines (before ++ rest) =
      (ofPaths linter parse defines before).append
        (ofPaths linter parse
          (tableBehind parse defines (ofPaths linter parse defines before).calls) rest) := by
  induction before generalizing defines passed with
  | nil => exact (done_append _).symm
  | cons path before ih =>
    rw [List.cons_append]
    cases turn linter parse defines path with
    | refused fault _ hs => rw [hs] at h; cases h
    | excluded _ hs =>
      rw [hs] at h
      rw [hs, hs, ih h, skip_append, calls_skip]
    | faulty fault _ _ hs => rw [hs] at h; cases h
    | unparsed e _ hp hs =>
      rw [hs] at h
      obtain ⟨q, hq⟩ := ok_of_behind h
      rw [hs, hs, ih hq, behind_append, calls_behind, tableBehind_cons_unparsed hp]
    | stopped parsed fault _ _ _ hs => rw [hs] at h; cases h
    | checked parsed broken _ hp _ hs =>
      rw [hs] at h
      obtain ⟨q, hq⟩ := ok_of_behind h
      rw [hs, hs, ih hq, behind_append, calls_behind, tableBehind_cons_parsed hp]

/-! ## The file at which a run ends early -/

/-- A file that ends a run, with the definitions in front of it: the patterns of excluded files cannot
be read, parsing it fails with what is no error of the file, or a rule fails on its tree. -/
inductive EndsAt (linter : Linter) (parse : ParseFile) (path : Path) (defines : DefineTable) :
    RunFault → Prop
  | pattern {fault : Pattern.Fault} (hx : linter.config.isExcluded path = .error fault) :
      EndsAt linter parse path defines (.pattern fault)
  | parser {fault : Fault} (hx : linter.config.isExcluded path = .ok false)
      (hp : parse path defines = .error (.fault fault)) :
      EndsAt linter parse path defines (.parser fault)
  | rule {parsed : ParsedSource} {fault : PluginFault}
      (hx : linter.config.isExcluded path = .ok false) (hp : parse path defines = .ok parsed)
      (hb : linter.lint parsed.path parsed.tree = .error fault) :
      EndsAt linter parse path defines (.rule fault)

/-- A run that stops at a file: it goes to its end over the files before, and the file ends it with
the definitions behind them. -/
structure Stop (linter : Linter) (parse : ParseFile) (defines : DefineTable) (paths before : List Path)
    (fault : RunFault) : Prop where
  ended : ∃ passed, (ofPaths linter parse defines before).outcome = .ok passed
  failing : ∃ path after, paths = before ++ path :: after ∧
    EndsAt linter parse path
      (tableBehind parse defines (ofPaths linter parse defines before).calls) fault

variable {defines : DefineTable} {paths before : List Path} {fault : RunFault}

/-- Nothing is told of a file that ends a run. -/
theorem EndsAt.ofPaths_eq {path : Path} (h : EndsAt linter parse path defines fault)
    (after : List Path) :
    ∃ calls, ofPaths linter parse defines (path :: after) = failed calls fault := by
  cases h with
  | pattern hx => exact ⟨[], by simp only [ofPaths, hx]⟩
  | parser hx hp => exact ⟨[⟨path, defines⟩], by simp only [ofPaths, hx, hp]⟩
  | rule hx hp hb => exact ⟨[⟨path, defines⟩], by simp only [ofPaths, hx, hp, hb]⟩

/-- All that a run tells that stops at a file is what the run over the files before tells. -/
theorem Stop.ofPaths_eq (h : Stop linter parse defines paths before fault) :
    (ofPaths linter parse defines paths).outcome = .error fault ∧
      (ofPaths linter parse defines paths).reports = (ofPaths linter parse defines before).reports ∧
      (ofPaths linter parse defines paths).skipped = (ofPaths linter parse defines before).skipped := by
  obtain ⟨passed, hended⟩ := h.ended
  obtain ⟨path, after, rfl, hends⟩ := h.failing
  obtain ⟨calls, hcalls⟩ := hends.ofPaths_eq after
  rw [ofPaths_append hended, hcalls]
  simp only [append, hended, failed, List.append_nil, Except.map, and_self]

/-- A file in front that the run gets over moves the stop of the run behind it. -/
theorem Stop.cons {path : Path} {defines' : DefineTable} (h : Stop linter parse defines' paths before fault)
    (hended : ∀ passed, (ofPaths linter parse defines' before).outcome = .ok passed →
      ∃ passed', (ofPaths linter parse defines (path :: before)).outcome = .ok passed')
    (htable : tableBehind parse defines (ofPaths linter parse defines (path :: before)).calls =
      tableBehind parse defines' (ofPaths linter parse defines' before).calls) :
    Stop linter parse defines (path :: paths) (path :: before) fault where
  ended := by
    obtain ⟨passed, hp⟩ := h.ended
    exact hended passed hp
  failing := by
    obtain ⟨stop, after, rfl, hends⟩ := h.failing
    exact ⟨stop, after, rfl, htable ▸ hends⟩

theorem EndsAt.stop {path : Path} (h : EndsAt linter parse path defines fault) (after : List Path) :
    Stop linter parse defines (path :: after) [] fault where
  ended := ⟨true, rfl⟩
  failing := ⟨path, after, rfl, h⟩

theorem error_of_behind {call : ParseCall} {reports : List Report} {passed : Bool} {run : Run}
    (h : (behind call reports passed run).outcome = .error fault) : run.outcome = .error fault := by
  rw [outcome_behind] at h
  cases hr : run.outcome with
  | error fault' => rw [hr] at h; exact h
  | ok q => rw [hr] at h; cases h

/-- A run that ends early stops at a file. -/
theorem exists_stop (h : (ofPaths linter parse defines paths).outcome = .error fault) :
    ∃ before, Stop linter parse defines paths before fault := by
  induction paths generalizing defines with
  | nil => cases h
  | cons path paths ih =>
    cases turn linter parse defines path with
    | refused fault' hx hs =>
      rw [hs] at h
      obtain rfl := Except.error.inj h
      exact ⟨[], (EndsAt.pattern hx).stop paths⟩
    | excluded _ hs =>
      rw [hs] at h
      obtain ⟨before, hstop⟩ := ih h
      exact ⟨path :: before, hstop.cons (fun passed hp => ⟨passed, by rw [hs, outcome_skip, hp]⟩)
        (by rw [hs, calls_skip])⟩
    | faulty fault' hx hp hs =>
      rw [hs] at h
      obtain rfl := Except.error.inj h
      exact ⟨[], (EndsAt.parser hx hp).stop paths⟩
    | unparsed e _ hp hs =>
      rw [hs] at h
      obtain ⟨before, hstop⟩ := ih (error_of_behind h)
      exact ⟨path :: before, hstop.cons
        (fun passed hok => ⟨false && passed, by rw [hs, outcome_behind, hok]; rfl⟩)
        (by rw [hs, calls_behind, tableBehind_cons_unparsed hp])⟩
    | stopped parsed fault' hx hp hb hs =>
      rw [hs] at h
      obtain rfl := Except.error.inj h
      exact ⟨[], (EndsAt.rule hx hp hb).stop paths⟩
    | checked parsed broken _ hp _ hs =>
      rw [hs] at h
      obtain ⟨before, hstop⟩ := ih (error_of_behind h)
      exact ⟨path :: before, hstop.cons
        (fun passed hok => ⟨broken.isEmpty && passed, by rw [hs, outcome_behind, hok]; rfl⟩)
        (by rw [hs, calls_behind, tableBehind_cons_parsed hp])⟩

end HdlLint.Run
