import HdlLint.Proofs.Linter.Lint
import HdlLint.Proofs.Linter.Part
import HdlLint.Proofs.Run.Step

/-!
# Runs with fewer rules

A run with some of the rules of another one (`Fewer`): it goes over the same files with the same
definitions, and it tells of each file what the other run tells of it by these rules. What one file
does to such a pair of runs is `Fewer.skip`, `Fewer.behind` and `Fewer.failed`; `ofPaths_fewer_rules`
is the fact about whole runs.
-/

namespace HdlLint

/-- The broken rule that a report is about. -/
def Report.failed? : Report → Option Failed
  | .broken failed => some failed
  | .unparsed _ => none
  | .passed _ => none

namespace Run

/-- What a run with some rules tells about a file that it parses. -/
def reportsOf (l : Linter) (parse : ParseFile) (call : ParseCall) : List Report :=
  match parse call.path call.defines with
  | .error (.fault _) => []
  | .error (.error e) => [.unparsed e]
  | .ok parsed =>
    match l.lint parsed.path parsed.tree with
    | .error _ => []
    | .ok broken => fileReports call.path broken

/-- The broken rules that a run with some rules tells about in a file that it parses. -/
def failedOf (l : Linter) (parse : ParseFile) (call : ParseCall) : List Failed :=
  (reportsOf l parse call).filterMap Report.failed?

/-- Two runs over the same files, the second one with some of the rules of the first one. -/
structure Fewer (l s : Linter) (parse : ParseFile) (whole part : Run) : Prop where
  calls : part.calls = whole.calls
  skipped : part.skipped = whole.skipped
  reports_whole : whole.reports = whole.calls.flatMap (reportsOf l parse)
  reports_part : part.reports = whole.calls.flatMap (reportsOf s parse)
  failed : ∀ call ∈ whole.calls,
    failedOf s parse call = (failedOf l parse call).filter fun f => f.name ∈ s.names
  outcome : (∃ fault, whole.outcome = .error fault ∧ part.outcome = .error fault) ∨
    ∃ b b', whole.outcome = .ok b ∧ part.outcome = .ok b' ∧ (b = true → b' = true)

variable {l s : Linter} {rs ss : List Registered} {parse : ParseFile} {whole part : Run}

@[simp] theorem filterMap_failed?_fileReports (path : Path) (broken : List Failed) :
    (fileReports path broken).filterMap Report.failed? = broken := by
  cases broken with
  | nil => rfl
  | cons failed more =>
    rw [fileReports, List.isEmpty_cons, if_neg Bool.false_ne_true, List.filterMap_map]
    exact List.filterMap_some

/-! ## One file -/

theorem Fewer.done : Fewer l s parse done done where
  calls := rfl
  skipped := rfl
  reports_whole := rfl
  reports_part := rfl
  failed _ h := nomatch h
  outcome := .inr ⟨true, true, rfl, rfl, id⟩

/-- Both runs end at a file of which nothing is told. -/
theorem Fewer.failed_of {calls : List ParseCall} (hl : ∀ call ∈ calls, reportsOf l parse call = [])
    (hs : ∀ call ∈ calls, reportsOf s parse call = []) (fault : RunFault) :
    Fewer l s parse (Run.failed calls fault) (Run.failed calls fault) where
  calls := rfl
  skipped := rfl
  reports_whole := (List.flatMap_eq_nil_iff.mpr hl).symm
  reports_part := (List.flatMap_eq_nil_iff.mpr hs).symm
  failed call h := by rw [failedOf, failedOf, hl call h, hs call h]; rfl
  outcome := .inl ⟨fault, rfl, rfl⟩

/-- Both runs leave a file out. -/
theorem Fewer.skip (h : Fewer l s parse whole part) (path : Path) :
    Fewer l s parse (skip path whole) (skip path part) where
  calls := h.calls
  skipped := congrArg (path :: ·) h.skipped
  reports_whole := h.reports_whole
  reports_part := h.reports_part
  failed := h.failed
  outcome := h.outcome

/-- Both runs go over a file, and the part of the rules passes where all of them do. -/
theorem Fewer.behind (h : Fewer l s parse whole part) {call : ParseCall}
    {reports reports' : List Report} (hl : reportsOf l parse call = reports)
    (hs : reportsOf s parse call = reports')
    (hfailed : reports'.filterMap Report.failed? =
      (reports.filterMap Report.failed?).filter fun f => f.name ∈ s.names)
    {passed passed' : Bool} (hpassed : passed = true → passed' = true) :
    Fewer l s parse (behind call reports passed whole) (behind call reports' passed' part) where
  calls := congrArg (call :: ·) h.calls
  skipped := h.skipped
  reports_whole := by rw [← hl]; exact congrArg (reportsOf l parse call ++ ·) h.reports_whole
  reports_part := by rw [← hs]; exact congrArg (reportsOf s parse call ++ ·) h.reports_part
  failed := List.forall_mem_cons.mpr ⟨by rw [failedOf, failedOf, hl, hs, hfailed], h.failed⟩
  outcome := by
    rw [outcome_behind, outcome_behind]
    rcases h.outcome with ⟨fault, hw, hp⟩ | ⟨b, b', hw, hp, himp⟩
    · exact .inl ⟨fault, by rw [hw]; rfl, by rw [hp]; rfl⟩
    · refine .inr ⟨passed && b, passed' && b', by rw [hw]; rfl, by rw [hp]; rfl, fun hand => ?_⟩
      obtain ⟨h₁, h₂⟩ := (Bool.and_eq_true _ _).mp hand
      rw [hpassed h₁, himp h₂]
      rfl

/-! ## Whole runs -/

/-- No rule fails in a run. -/
def Answered (run : Run) : Prop :=
  ∀ fault, run.outcome ≠ .error (.rule fault)

theorem Answered.of_behind {call : ParseCall} {reports : List Report} {passed : Bool}
    (h : (behind call reports passed whole).Answered) : whole.Answered := fun fault hw =>
  h fault (by rw [outcome_behind, hw]; rfl)

theorem reportsOf_unparsed {path : Path} {defines : DefineTable} {e : SourceError}
    (hp : parse path defines = .error (.error e)) (l : Linter) :
    reportsOf l parse ⟨path, defines⟩ = [.unparsed e] := by
  simp only [reportsOf, hp]

theorem reportsOf_checked {path : Path} {defines : DefineTable} {parsed : ParsedSource}
    {broken : List Failed} (hp : parse path defines = .ok parsed)
    (hb : l.lint parsed.path parsed.tree = .ok broken) :
    reportsOf l parse ⟨path, defines⟩ = fileReports path broken := by
  simp only [reportsOf, hp, hb]

theorem fewer_ofPaths (hl : l.Holds rs) (hs : s.Holds ss) (hsub : ss.Sublist rs)
    (hd : RuleObject.Distinguished l.rules)
    (hx : s.config.excludePaths = l.config.excludePaths) (defines : DefineTable) (paths : List Path)
    (hrun : (ofPaths l parse defines paths).Answered) :
    Fewer l s parse (ofPaths l parse defines paths) (ofPaths s parse defines paths) := by
  induction paths generalizing defines with
  | nil => exact .done
  | cons path paths ih =>
    have hexcluded : s.config.isExcluded path = l.config.isExcluded path :=
      congrArg (Config.matchesAny path.toString) hx
    cases he : l.config.isExcluded path with
    | error fault =>
      simp only [ofPaths, hexcluded, he]
      exact .failed_of (List.forall_mem_nil _) (List.forall_mem_nil _) _
    | ok excluded =>
    cases excluded with
    | true =>
      simp only [ofPaths, he] at hrun
      simp only [ofPaths, hexcluded, he]
      exact (ih defines hrun).skip path
    | false =>
    rw [he] at hexcluded
    cases hp : parse path defines with
    | error failure =>
      cases failure with
      | fault fault =>
        have hnone : ∀ l, ∀ call ∈ [(⟨path, defines⟩ : ParseCall)], reportsOf l parse call = [] := by
          intro l
          rw [List.forall_mem_singleton, reportsOf, hp]
        simp only [ofPaths, hexcluded, he, hp]
        exact .failed_of (hnone l) (hnone s) _
      | error e =>
        simp only [ofPaths, he, hp] at hrun
        simp only [ofPaths, hexcluded, he, hp]
        exact (ih defines hrun.of_behind).behind (reportsOf_unparsed hp l) (reportsOf_unparsed hp s) rfl id
    | ok parsed =>
      cases hb : l.lint parsed.path parsed.tree with
      | error fault =>
        simp only [ofPaths, he, hp, hb] at hrun
        exact absurd rfl (hrun fault)
      | ok broken =>
        have hb' := Linter.lint_part hl hs hsub hd hb
        rw [ofPaths_cons_checked he hp hb] at hrun ⊢
        rw [ofPaths_cons_checked hexcluded hp hb']
        refine (ih parsed.defines hrun.of_behind).behind (reportsOf_checked hp hb)
          (reportsOf_checked hp hb') (by simp) fun hpassed => ?_
        rw [List.isEmpty_iff.mp hpassed]
        rfl

/-- In a run in which no rule fails, some of its rules run alike without the other ones: no rule
fails, the same files are parsed with the same definitions, and of each file the broken rules are
told that are told among all rules, in the same order and unchanged. The run ends like the one with
all rules, and it passes where that one does. -/
theorem ofPaths_fewer_rules (hl : l.Holds rs) (hs : s.Holds ss) (hsub : ss.Sublist rs)
    (hd : RuleObject.Distinguished l.rules)
    (hx : s.config.excludePaths = l.config.excludePaths) (parse : ParseFile) (seed : DefineTable)
    (paths : List Path) (hrun : ∀ fault, (ofPaths l parse seed paths).outcome ≠ .error (.rule fault)) :
    let whole := ofPaths l parse seed paths
    let part := ofPaths s parse seed paths
    (∀ fault, part.outcome ≠ .error (.rule fault)) ∧
    part.calls = whole.calls ∧
    part.skipped = whole.skipped ∧
    whole.reports = whole.calls.flatMap (reportsOf l parse) ∧
    part.reports = whole.calls.flatMap (reportsOf s parse) ∧
    (∀ call ∈ whole.calls,
      failedOf s parse call = (failedOf l parse call).filter fun f => f.name ∈ s.names) ∧
    (∀ fault, whole.outcome = .error fault → part.outcome = .error fault) ∧
    ∀ passed, whole.outcome = .ok passed →
      ∃ passed', part.outcome = .ok passed' ∧ (passed = true → passed' = true) := by
  intro whole part
  have h : Fewer l s parse whole part := fewer_ofPaths hl hs hsub hd hx seed paths hrun
  refine ⟨?_, h.calls, h.skipped, h.reports_whole, h.reports_part, h.failed, ?_, ?_⟩
  · intro fault hfault
    rcases h.outcome with ⟨_, hw, hp⟩ | ⟨_, _, -, hp, -⟩
    · rw [hp] at hfault
      exact hrun fault (hw.trans hfault)
    · rw [hp] at hfault
      cases hfault
  · intro fault hfault
    rcases h.outcome with ⟨_, hw, hp⟩ | ⟨_, _, hw, -, -⟩
    · exact hp.trans (hw.symm.trans hfault)
    · rw [hw] at hfault
      cases hfault
  · intro passed hpassed
    rcases h.outcome with ⟨_, hw, -⟩ | ⟨b, b', hw, hp, himp⟩
    · rw [hw] at hpassed
      cases hpassed
    · rw [hw] at hpassed
      obtain rfl := Except.ok.inj hpassed
      exact ⟨b', hp, himp⟩

/-! ## A run with one rule of two -/

/-- The entry of a rule that forbids modules. -/
def moduleEntry : Registered :=
  ⟨Linter.noModule, "no_module", "here"⟩

/-- The entry of a rule that forbids generate regions. -/
def regionEntry : Registered :=
  ⟨Linter.forbids 1 "no_region" .generateRegion (.ok (.text "unroll it")), "no_region", "here"⟩

theorem answers_forbids (number : Nat) (name : String) (kind : NodeKind) (hint : Value) :
    (Linter.forbids number name kind (.ok hint)).rule.Answers where
  check _ node := ⟨_, rfl, by split <;> rfl⟩
  hint := ⟨_, rfl⟩
  reason := ⟨_, rfl⟩

/-- The linter with the rules of some entries. -/
def linterOf (rs : List Registered) : Linter :=
  (Linter.registerAll "here" (Linter.empty ⟨OrderedTable.empty, []⟩) (rs.map (·.object))).1

/-- A parser that finds a module with a generate region in every file. -/
def parseModule : ParseFile := fun path defines =>
  .ok ⟨path, Linter.sampleModule [Linter.sampleRegion], defines⟩

/-- A module with a generate region breaks both rules. Without the first rule, the second one is the
first one of the linter, and still it reports under its own name. -/
theorem ofPaths_fewer_rules_sample :
    let whole := [moduleEntry, regionEntry]
    let part := [regionEntry]
    let call : ParseCall := ⟨Path.ofString "a.sv", ∅⟩
    (linterOf whole).Holds whole ∧ (linterOf part).Holds part ∧
    RuleObject.Distinguished (linterOf whole).rules ∧
    (∀ fault, (ofPaths (linterOf whole) parseModule ∅ [call.path]).outcome ≠ .error (.rule fault)) ∧
    (failedOf (linterOf whole) parseModule call).map (·.name) = ["no_module", "no_region"] ∧
    (failedOf (linterOf part) parseModule call).map (·.name) = ["no_region"] := by
  intro whole part call
  have hwhole : (linterOf whole).Holds whole :=
    ⟨rfl, rfl, rfl, rfl, List.forall_mem_cons.mpr ⟨rfl, List.forall_mem_singleton.mpr rfl⟩⟩
  have hpart : (linterOf part).Holds part :=
    ⟨rfl, rfl, rfl, rfl, List.forall_mem_singleton.mpr rfl⟩
  have hd : RuleObject.Distinguished (linterOf whole).rules := by
    rw [hwhole.rules_eq]
    rintro o ho o' ho' heq
    simp only [whole, List.map_cons, List.map_nil, List.mem_cons, List.not_mem_nil, or_false] at ho ho'
    rcases ho with rfl | rfl <;> rcases ho' with rfl | rfl
    · rfl
    · cases heq
    · cases heq
    · rfl
  have hanswers : ∀ o ∈ (linterOf whole).rules, o.rule.Answers := by
    rw [hwhole.rules_eq]
    exact List.forall_mem_cons.mpr
      ⟨answers_forbids .., List.forall_mem_singleton.mpr (answers_forbids ..)⟩
  obtain ⟨broken, hb⟩ := Linter.lint_ok hanswers call.path (Linter.sampleModule [Linter.sampleRegion])
  have hstep : ofPaths (linterOf whole) parseModule ∅ [call.path] =
      behind call (fileReports call.path broken) broken.isEmpty done :=
    ofPaths_cons_checked rfl rfl hb []
  have hrun : ∀ fault,
      (ofPaths (linterOf whole) parseModule ∅ [call.path]).outcome ≠ .error (.rule fault) := by
    rw [hstep]
    nofun
  have hcall : call ∈ (ofPaths (linterOf whole) parseModule ∅ [call.path]).calls := by
    rw [hstep]
    exact List.mem_cons_self
  obtain ⟨-, -, -, -, -, hfailed, -⟩ := ofPaths_fewer_rules hwhole hpart (.cons _ (.refl _)) hd rfl
    parseModule ∅ [call.path] hrun
  have hboth : (failedOf (linterOf whole) parseModule call).map (·.name) = ["no_module", "no_region"] := by
    decide +kernel
  refine ⟨hwhole, hpart, hd, hrun, hboth, ?_⟩
  rw [hfailed call hcall]
  decide +kernel

end Run

end HdlLint
