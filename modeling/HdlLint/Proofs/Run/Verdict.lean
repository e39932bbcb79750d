import HdlLint.Program
import HdlLint.Proofs.Report.Written
import HdlLint.Proofs.Run.FewerRules
import HdlLint.Proofs.Run.Threading
import Mathlib.Algebra.GroupWithZero.Nat

/-!
# The verdict of a run and what is written of it

A run that goes to its end passes where every file that is not left out is parsed and none of its
nodes breaks a rule. What is written of it follows from its reports: one for each broken rule and
each error, and one for each file that passes (`Judged`). `ofPaths_verdict` puts the verdict and the
written reports together for every verbosity.
-/

namespace HdlLint

/-! ## Trees that keep all rules -/

namespace Linter

variable {l : Linter}

/-- Whether a node of a tree breaks a rule. -/
def Breaks (l : Linter) (root : Tree) : Prop :=
  ∃ node ∈ root.nodes, ∃ o ∈ l.rules, ∃ v,
    o.rule.check root node = .ok (.verdict v) ∧ v.passed = false

theorem broken_eq_nil_iff {root node : Tree} {entries : List (RuleObject × String)}
    {failures : List (RuleObject × Verdict)} (h : l.broken root node entries = .ok failures) :
    failures = [] ↔
      ∀ e ∈ entries, ∀ v, e.1.rule.check root node = .ok (.verdict v) → v.passed = true := by
  induction entries generalizing failures with
  | nil =>
    obtain rfl := Except.ok.inj h
    simp
  | cons e entries ih =>
    obtain ⟨o, name⟩ := e
    rw [broken, ask] at h
    rw [List.forall_mem_cons]
    cases hcheck : o.rule.check root node with
    | error fault => simp only [hcheck] at h; cases h
    | ok reply =>
    cases reply with
    | stray value => simp only [hcheck] at h; cases h
    | hidden fault => simp only [hcheck] at h; cases h
    | verdict v =>
    simp only [hcheck] at h
    cases hrest : l.broken root node entries with
    | error fault => rw [hrest] at h; cases h
    | ok rest =>
      rw [hrest] at h
      obtain rfl := Except.ok.inj h
      rw [← ih hrest]
      cases hv : v.passed with
      | true => simp [hv]
      | false => simp [hv]

theorem reportAll_eq_nil_iff {path : Path} {node : Tree} {failures : List (RuleObject × Verdict)}
    {reports : List Failed} (h : l.reportAll path node failures = .ok reports) :
    reports = [] ↔ failures = [] := by
  cases failures with
  | nil =>
    obtain rfl := Except.ok.inj h
    simp
  | cons f failures =>
    rw [reportAll] at h
    split at h
    · cases h
    · split at h
      · cases h
      · obtain rfl := Except.ok.inj h
        simp

theorem check_eq_nil_iff (hlen : l.rules.length = l.names.length) {root node : Tree}
    {failures : List (RuleObject × Verdict)} (h : l.check root node = .ok failures) :
    failures = [] ↔
      ∀ o ∈ l.rules, ∀ v, o.rule.check root node = .ok (.verdict v) → v.passed = true := by
  have hfst : (l.rules.zip l.names).map Prod.fst = l.rules := List.map_fst_zip (Nat.le_of_eq hlen)
  rw [broken_eq_nil_iff h, ← hfst, List.forall_mem_map, hfst]

theorem lintNodes_eq_nil_iff (hlen : l.rules.length = l.names.length) {path : Path} {root : Tree}
    {nodes : List Tree} {broken : List Failed} (h : l.lintNodes path root nodes = .ok broken) :
    broken = [] ↔ ∀ node ∈ nodes, ∀ o ∈ l.rules, ∀ v,
      o.rule.check root node = .ok (.verdict v) → v.passed = true := by
  induction nodes generalizing broken with
  | nil =>
    obtain rfl := Except.ok.inj h
    simp
  | cons node nodes ih =>
    rw [lintNodes] at h
    split at h
    · cases h
    next failures hcheck =>
    split at h
    · cases h
    next failed hfailed =>
    split at h
    · cases h
    next rest hrest =>
    obtain rfl := Except.ok.inj h
    rw [List.append_eq_nil_iff, reportAll_eq_nil_iff hfailed, check_eq_nil_iff hlen hcheck, ih hrest,
      List.forall_mem_cons]

/-- Nothing is told of a tree that was checked to its end if and only if it keeps all rules. -/
theorem lint_eq_nil_iff (hlen : l.rules.length = l.names.length) {path : Path} {root : Tree}
    {broken : List Failed} (h : l.lint path root = .ok broken) : broken = [] ↔ ¬ l.Breaks root := by
  rw [lintNodes_eq_nil_iff hlen h, Breaks]
  push Not
  simp only [ne_eq, Bool.not_eq_false]

end Linter

/-! ## One file -/

namespace Run

variable {l : Linter} {parse : ParseFile} {call : ParseCall} {run : Run}

/-- Whether a file has an error that keeps it from being parsed. -/
def isUnparsed (parse : ParseFile) (call : ParseCall) : Bool :=
  match parse call.path call.defines with
  | .error (.error _) => true
  | _ => false

/-- The broken rules of a file, none where it is not parsed. -/
def failures (l : Linter) (parse : ParseFile) (call : ParseCall) : List Failed :=
  match parse call.path call.defines with
  | .ok parsed => (l.lint parsed.path parsed.tree).toOption.getD []
  | .error _ => []

/-- Whether a file is parsed and keeps all rules. -/
def isClean (l : Linter) (parse : ParseFile) (call : ParseCall) : Bool :=
  !isUnparsed parse call && (failures l parse call).isEmpty

/-- A file that a run gets over: it has an error, or it is parsed and checked. -/
inductive Settled (l : Linter) (parse : ParseFile) (call : ParseCall) : Prop
  | unparsed (e : SourceError) (h : parse call.path call.defines = .error (.error e))
  | checked (parsed : ParsedSource) (broken : List Failed)
      (h : parse call.path call.defines = .ok parsed)
      (hb : l.lint parsed.path parsed.tree = .ok broken)

/-- What the reports on a file come to. -/
structure Counted (l : Linter) (parse : ParseFile) (call : ParseCall) : Prop where
  any : (reportsOf l parse call).any Report.isDiagnostic = !isClean l parse call
  count : (reportsOf l parse call).countP Report.isDiagnostic =
    (failures l parse call).length + if isUnparsed parse call then 1 else 0
  passes : ((reportsOf l parse call).filter fun r => !r.isDiagnostic) =
    if isClean l parse call then [.passed call.path] else []

theorem Settled.counted (h : Settled l parse call) : Counted l parse call := by
  cases h with
  | unparsed e h =>
    have hr : reportsOf l parse call = [.unparsed e] := reportsOf_unparsed h l
    have hu : isUnparsed parse call = true := by simp only [isUnparsed, h]
    have hf : failures l parse call = [] := by simp only [failures, h]
    constructor <;> simp [hr, hu, hf, isClean, Report.isDiagnostic]
  | checked parsed broken h hb =>
    have hr : reportsOf l parse call = fileReports call.path broken := reportsOf_checked h hb
    have hu : isUnparsed parse call = false := by simp only [isUnparsed, h]
    have hf : failures l parse call = broken := by
      simp only [failures, h, hb]
      rfl
    cases broken with
    | nil => constructor <;> simp [hr, hu, hf, isClean, fileReports, Report.isDiagnostic]
    | cons failed more =>
      have hall : ∀ r ∈ (failed :: more).map Report.broken, r.isDiagnostic = true :=
        List.forall_mem_map.mpr fun _ _ => rfl
      have hmap : reportsOf l parse call = (failed :: more).map .broken := hr
      have hc : isClean l parse call = false := by simp [isClean, hf]
      refine ⟨?_, ?_, ?_⟩
      · rw [hmap, hc]
        rfl
      · rw [hmap, List.countP_eq_length.mpr hall, hf, hu, List.length_map]
        rfl
      · rw [hmap, hc, if_neg Bool.false_ne_true, List.filter_eq_nil_iff]
        intro r hr
        rw [hall r hr]
        exact Bool.false_ne_true

/-- A file is clean if and only if it is parsed and none of its nodes breaks a rule. -/
theorem Settled.isClean_iff (hlen : l.rules.length = l.names.length) (h : Settled l parse call) :
    isClean l parse call = true ↔
      ∃ parsed, parse call.path call.defines = .ok parsed ∧ ¬ l.Breaks parsed.tree := by
  cases h with
  | unparsed e h => simp [isClean, isUnparsed, h]
  | checked parsed broken h hb =>
    have hf : failures l parse call = broken := by
      simp only [failures, h, hb]
      rfl
    have hu : isUnparsed parse call = false := by simp only [isUnparsed, h]
    rw [isClean, hu, hf, Bool.not_false, Bool.true_and, List.isEmpty_iff,
      Linter.lint_eq_nil_iff hlen hb, h]
    constructor
    · exact fun hn => ⟨parsed, rfl, hn⟩
    · rintro ⟨parsed', heq, hn⟩
      exact Except.ok.inj heq ▸ hn

/-- A file that is not clean cannot be parsed, or one of its nodes breaks a rule. -/
theorem Settled.not_isClean_iff (hlen : l.rules.length = l.names.length) (h : Settled l parse call) :
    isClean l parse call = false ↔
      (∃ e, parse call.path call.defines = .error (.error e)) ∨
        ∃ parsed, parse call.path call.defines = .ok parsed ∧ l.Breaks parsed.tree := by
  rw [← Bool.not_eq_true, h.isClean_iff hlen]
  cases h with
  | unparsed e h => simp [h]
  | checked parsed broken h hb => simp [h]

/-! ## Whole runs -/

/-- What holds of a run that goes to its end over some files. -/
structure Judged (l : Linter) (parse : ParseFile) (paths : List Path) (run : Run) : Prop where
  paths : run.calls.map ParseCall.path = paths.filter l.config.keeps
  settled : ∀ call ∈ run.calls, Settled l parse call
  reports : run.reports = run.calls.flatMap (reportsOf l parse)
  outcome : run.outcome = .ok (run.calls.all (isClean l parse))

variable {paths : List Path}

theorem Judged.done : Judged l parse [] done where
  paths := rfl
  settled := nofun
  reports := rfl
  outcome := rfl

theorem Judged.skip {path : Path} (h : Judged l parse paths run)
    (hk : l.config.keeps path = false) : Judged l parse (path :: paths) (skip path run) where
  paths := by rw [calls_skip, h.paths, List.filter_cons_of_neg (Bool.eq_false_iff.mp hk)]
  settled := h.settled
  reports := h.reports
  outcome := h.outcome

theorem Judged.behind (h : Judged l parse paths run) (hk : l.config.keeps call.path = true)
    (hs : Settled l parse call) {reports : List Report} (hr : reportsOf l parse call = reports)
    {passed : Bool} (hp : isClean l parse call = passed) :
    Judged l parse (call.path :: paths) (behind call reports passed run) where
  paths := by rw [calls_behind, List.map_cons, h.paths, List.filter_cons_of_pos hk]
  settled := List.forall_mem_cons.mpr ⟨hs, h.settled⟩
  reports := by rw [← hr]; exact congrArg (reportsOf l parse call ++ ·) h.reports
  outcome := by rw [outcome_behind, h.outcome, ← hp]; rfl

/-- A run in which no rule fails goes to its end, where the patterns of excluded files can be read
and the parser fails only with errors of files. -/
theorem judged_ofPaths (hpatterns : ∀ p ∈ l.config.excludePaths, Pattern.check p = .ok ())
    (hparser : ∀ path defines fault, parse path defines ≠ .error (.fault fault))
    (defines : DefineTable) (paths : List Path) (hrun : (ofPaths l parse defines paths).Answered) :
    Judged l parse paths (ofPaths l parse defines paths) := by
  induction paths generalizing defines with
  | nil => exact .done
  | cons path paths ih =>
    cases turn l parse defines path with
    | refused fault hx _ =>
      obtain ⟨excluded, hok⟩ := Config.matchesAny_ok hpatterns path.toString
      exact absurd (hok.symm.trans hx) nofun
    | excluded hx hs =>
      rw [hs] at hrun ⊢
      exact (ih defines hrun).skip (Config.keeps_of_isExcluded hx)
    | faulty fault _ hp _ => exact absurd hp (hparser path defines fault)
    | unparsed e hx hp hs =>
      rw [hs] at hrun ⊢
      refine (ih defines hrun.of_behind).behind (Config.keeps_of_isExcluded hx) (.unparsed e hp)
        (reportsOf_unparsed hp l) ?_
      simp only [isClean, isUnparsed, hp, Bool.not_true, Bool.false_and]
    | stopped parsed fault _ _ _ hs =>
      rw [hs] at hrun
      exact absurd rfl (hrun fault)
    | checked parsed broken hx hp hb hs =>
      rw [hs] at hrun ⊢
      refine (ih parsed.defines hrun.of_behind).behind (Config.keeps_of_isExcluded hx)
        (.checked parsed broken hp hb) (reportsOf_checked hp hb) ?_
      simp only [isClean, isUnparsed, failures, hp, hb]
      rfl

/-- What the reports on files come to that a run gets over. -/
structure CountedAll (l : Linter) (parse : ParseFile) (calls : List ParseCall)
    (reports : List Report) : Prop where
  any : reports.any Report.isDiagnostic = !calls.all (isClean l parse)
  count : reports.countP Report.isDiagnostic =
    (calls.map fun call => (failures l parse call).length).sum + calls.countP (isUnparsed parse)
  passes : (reports.filter fun r => !r.isDiagnostic) =
    (calls.filter (isClean l parse)).map fun call => .passed call.path

theorem countedAll_of_settled {calls : List ParseCall} (h : ∀ call ∈ calls, Settled l parse call) :
    CountedAll l parse calls (calls.flatMap (reportsOf l parse)) := by
  induction calls with
  | nil => exact ⟨rfl, rfl, rfl⟩
  | cons call calls ih =>
    obtain ⟨hcall, hcalls⟩ := List.forall_mem_cons.mp h
    have hfirst := hcall.counted
    have hrest := ih hcalls
    refine ⟨?_, ?_, ?_⟩
    · rw [List.flatMap_cons, List.any_append, hfirst.any, hrest.any, List.all_cons, Bool.not_and]
    · rw [List.flatMap_cons, List.countP_append, hfirst.count, hrest.count, List.map_cons,
        List.sum_cons, List.countP_cons]
      omega
    · rw [List.flatMap_cons, List.filter_append, hfirst.passes, hrest.passes, List.filter_cons]
      split <;> rfl

/-- The verdict of a run in which no rule fails, and what is written of it. Its files are those that
are not left out. It passes unless one of them cannot be parsed or has a node that breaks a rule;
what is written and how changes nothing about this. Unless the run is silent, it fails exactly when
a diagnostic is written, and one is written for each broken rule that is reported and for each file
that cannot be parsed. A silent run writes what another one writes but for the diagnostics. What is
left are the files that pass: they are written, in order, if the run is verbose. As many names as
rules stand in every linter that is built and registered to (`Linter.runAll_holds`). No report is
taken to be on a file whose name holds a null character (`FileSystem.sourceLine`). -/
theorem ofPaths_verdict (hlen : l.rules.length = l.names.length)
    (hpatterns : ∀ p ∈ l.config.excludePaths, Pattern.check p = .ok ())
    (hparser : ∀ path defines fault, parse path defines ≠ .error (.fault fault))
    (seed : DefineTable) (paths : List Path)
    (hrun : ∀ fault, (ofPaths l parse seed paths).outcome ≠ .error (.rule fault)) :
    let run := ofPaths l parse seed paths
    ∃ passed : Bool,
      run.calls.map ParseCall.path = paths.filter l.config.keeps ∧
      (passed = false ↔ ∃ call ∈ run.calls,
        (∃ e, parse call.path call.defines = .error (.error e)) ∨
          ∃ parsed, parse call.path call.defines = .ok parsed ∧ l.Breaks parsed.tree) ∧
      (∀ call ∈ run.calls, isClean l parse call = true ↔
        ∃ parsed, parse call.path call.defines = .ok parsed ∧ ¬ l.Breaks parsed.tree) ∧
      ∀ (fs : FileSystem) (v : Verbosity) (warnings : String),
        let written := Report.written v run.reports
        Outcome.ofRun fs v warnings run =
          { exit := .ok (if passed then 0 else 1)
            stdout := String.join (written.map (Report.text fs v.single))
            stderr := warnings ++ run.warnings v
            files := fs } ∧
        (∀ r ∈ written, ∃ rest, r.text fs v.single = r.label ++ rest) ∧
        (v.silent = false →
          (passed = false ↔ ∃ r ∈ written, r.isDiagnostic = true) ∧
          written.countP Report.isDiagnostic =
            (run.calls.map fun call => (failures l parse call).length).sum +
              run.calls.countP (isUnparsed parse)) ∧
        (v.silent = true → written =
          (Report.written { v with silent := false } run.reports).filter fun r => !r.isDiagnostic) ∧
        (written.filter fun r => !r.isDiagnostic) =
          if v.verbose then (run.calls.filter (isClean l parse)).map fun call => .passed call.path
          else [] := by
  intro run
  have h : Judged l parse paths run := judged_ofPaths hpatterns hparser seed paths hrun
  have hc : CountedAll l parse run.calls run.reports := h.reports ▸ countedAll_of_settled h.settled
  have hpassed : run.calls.all (isClean l parse) = false ↔
      ∃ call ∈ run.calls, isClean l parse call = false := by
    rw [← Bool.not_eq_true, List.all_eq_true]
    push Not
    simp only [ne_eq, Bool.not_eq_true]
  refine ⟨run.calls.all (isClean l parse), h.paths, ?_,
    fun call hcall => (h.settled call hcall).isClean_iff hlen, fun fs v warnings => ?_⟩
  · rw [hpassed]
    exact exists_congr fun call => and_congr_right fun hcall =>
      (h.settled call hcall).not_isClean_iff hlen
  · intro written
    refine ⟨?_, fun r _ => Report.exists_text_eq fs v.single r, fun hsilent => ?_,
      fun hsilent => Report.written_of_silent hsilent _, ?_⟩
    · rw [Outcome.ofRun, h.outcome, Report.write_eq]
    · have hdiagnostics := Report.filter_isDiagnostic_written hsilent run.reports
      refine ⟨?_, ?_⟩
      · rw [← List.any_eq_true, Report.any_isDiagnostic_written hsilent, hc.any]
        simp only [Bool.not_eq_true']
      · rw [List.countP_eq_length_filter, hdiagnostics, ← List.countP_eq_length_filter, hc.count]
    · rw [Report.filter_not_isDiagnostic_written, hc.passes]

/-! ## A run over four files -/

/-- A parser that finds an error in one file, a module in another one, and nothing in all others. -/
def mixedParse : ParseFile := fun path defines =>
  if path = ⟨.relative, ["bad.sv"]⟩ then .error (.error { kind := .parse, path := path })
  else if path = ⟨.relative, ["m.sv"]⟩ then .ok ⟨path, Linter.sampleModule [], defines⟩
  else .ok ⟨path, .absent, defines⟩

/-- Of four files one is left out, one cannot be parsed and one breaks a rule: two diagnostics are
written, or the one file that passes if the run is silent and verbose. -/
theorem ofPaths_verdict_sample :
    let run := ofPaths sampleLinter mixedParse ∅
      (["a.sv", "gen/b.sv", "bad.sv", "m.sv"].map Path.ofString)
    (∀ fs v, (Outcome.ofRun fs v "" run).exit = .ok 1) ∧
      (Report.written {} run.reports).countP Report.isDiagnostic = 2 ∧
      Report.written { silent := true, verbose := true } run.reports =
        [.passed (Path.ofString "a.sv")] := by
  have hparser : ∀ path defines fault, mixedParse path defines ≠ .error (.fault fault) := by
    intro path defines fault
    unfold mixedParse
    split
    · simp
    · split <;> simp
  have hsteady : Steady sampleLinter mixedParse :=
    ⟨steady_sample.patterns, steady_sample.rules, hparser⟩
  intro run
  obtain ⟨verdict, hverdict⟩ := outcome_ofPaths hsteady ∅
    (["a.sv", "gen/b.sv", "bad.sv", "m.sv"].map Path.ofString)
  obtain ⟨passed, -, -, -, hwritten⟩ := ofPaths_verdict (l := sampleLinter) rfl hsteady.patterns
    hparser ∅ (["a.sv", "gen/b.sv", "bad.sv", "m.sv"].map Path.ofString)
    fun fault => by rw [hverdict]; nofun
  let noFiles : FileSystem := { current := [], entries := [] }
  have hcount : (Report.written {} run.reports).countP Report.isDiagnostic = 2 := by
    rw [((hwritten noFiles {} "").2.2.1 rfl).2]
    decide +kernel
  have hfailed : passed = false :=
    ((hwritten noFiles {} "").2.2.1 rfl).1.mpr (List.countP_pos_iff.mp (by rw [hcount]; decide))
  refine ⟨fun fs v => ?_, hcount, ?_⟩
  · rw [(hwritten fs v "").1, hfailed]
    rfl
  · decide +kernel

end Run

end HdlLint
