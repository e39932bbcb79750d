import HdlLint.Run

/-!
# One file of a run

What a run does with its first file (`Run.turn`), and the three cases that are left once the
configuration, the rules and the parser keep a run going (`Steady`): the file is left out, or it
cannot be parsed, or it is parsed and checked (`Run.ofPaths_step`). Everything about whole runs is
proved from these cases by induction on the files.
-/

namespace HdlLint

namespace Config

/-- Whether a file is among those of a run: its patterns can be read, and none of them matches. -/
def keeps (c : Config) (path : Path) : Bool :=
  match c.isExcluded path with
  | .ok excluded => !excluded
  | .error _ => false

theorem keeps_of_isExcluded {c : Config} {path : Path} {excluded : Bool}
    (h : c.isExcluded path = .ok excluded) : c.keeps path = !excluded := by
  rw [keeps, h]

theorem matchesAny_ok {patterns : List String} (h : ∀ p ∈ patterns, Pattern.check p = .ok ())
    (text : String) : ∃ b, matchesAny text patterns = .ok b := by
  induction patterns with
  | nil => exact ⟨false, rfl⟩
  | cons pattern patterns ih =>
    have hp := h pattern List.mem_cons_self
    obtain ⟨b, hb⟩ := ih fun p hp => h p (List.mem_cons_of_mem _ hp)
    unfold Pattern.check at hp
    cases hr : Pattern.read pattern with
    | error fault => rw [hr] at hp; cases hp
    | ok items =>
      simp only [matchesAny, Pattern.occursIn, hr]
      split
      · exact ⟨true, rfl⟩
      · exact ⟨b, hb⟩
      · rename_i hf; cases hf

end Config

/-- A rule that answers whatever it is asked, and whose verdicts name ranges. -/
structure Rule.Answers (r : Rule) : Prop where
  check : ∀ root node, ∃ v, r.check root node = .ok (.verdict v) ∧ v.locateFault? = none
  hint : ∃ v, r.hint = .ok v
  reason : ∃ v, r.reason = .ok v

namespace Linter

theorem broken_ok {l : Linter} {entries : List (RuleObject × String)}
    (h : ∀ e ∈ entries, e.1.rule.Answers) (root node : Tree) :
    ∃ failures, l.broken root node entries = .ok failures ∧
      ∀ f ∈ failures, f.1.rule.Answers ∧ f.2.locateFault? = none := by
  induction entries with
  | nil => exact ⟨[], rfl, by simp⟩
  | cons e entries ih =>
    obtain ⟨o, name⟩ := e
    have ho : o.rule.Answers := h (o, name) List.mem_cons_self
    obtain ⟨v, hv, hlocate⟩ := ho.check root node
    obtain ⟨failures, hf, hm⟩ := ih fun e he => h e (List.mem_cons_of_mem _ he)
    have ha : l.ask root node o name = .ok v := by simp only [ask, hv]
    refine ⟨if v.passed then failures else (o, v) :: failures, by simp only [broken, ha, hf], ?_⟩
    split
    · exact hm
    · exact List.forall_mem_cons.mpr ⟨⟨ho, hlocate⟩, hm⟩

theorem reportAll_ok {l : Linter} {failures : List (RuleObject × Verdict)}
    (h : ∀ f ∈ failures, f.1.rule.Answers ∧ f.2.locateFault? = none) (path : Path) (node : Tree) :
    ∃ reports, l.reportAll path node failures = .ok reports := by
  induction failures with
  | nil => exact ⟨[], rfl⟩
  | cons f failures ih =>
    obtain ⟨o, v⟩ := f
    have ho : o.rule.Answers := (h (o, v) List.mem_cons_self).1
    have hlocate : v.locateFault? = none := (h (o, v) List.mem_cons_self).2
    obtain ⟨hint, hh⟩ := ho.hint
    obtain ⟨reason, hr⟩ := ho.reason
    obtain ⟨rest, hrest⟩ := ih fun f hf => h f (List.mem_cons_of_mem _ hf)
    simp only [reportAll, report, describe, hlocate, hh, hr, hrest]
    exact ⟨_, rfl⟩

/-- Rules that answer bring the check of a tree to its end. -/
theorem lint_ok {l : Linter} (h : ∀ o ∈ l.rules, o.rule.Answers) (path : Path) (root : Tree) :
    ∃ reports, l.lint path root = .ok reports := by
  unfold lint
  induction root.nodes with
  | nil => exact ⟨[], rfl⟩
  | cons node nodes ih =>
    obtain ⟨failures, hf, hm⟩ :=
      @broken_ok l (l.rules.zip l.names) (fun e he => h e.1 (List.of_mem_zip he).1) root node
    obtain ⟨here, hh⟩ := @reportAll_ok l failures hm path node
    obtain ⟨rest, hrest⟩ := ih
    exact ⟨here ++ rest, by simp only [lintNodes, check, hf, hh, hrest]⟩

end Linter

/-- A linter and a parser that let every run go to its end: the patterns of excluded files can be
read, the rules answer, and the parser fails only with errors of files. -/
structure Steady (linter : Linter) (parse : ParseFile) : Prop where
  patterns : ∀ p ∈ linter.config.excludePaths, Pattern.check p = .ok ()
  rules : ∀ r ∈ linter.rules, r.rule.Answers
  parser : ∀ path defines fault, parse path defines ≠ .error (.fault fault)

namespace Run

variable {linter : Linter} {parse : ParseFile}

@[simp] theorem calls_skip (path : Path) (rest : Run) : (skip path rest).calls = rest.calls := rfl
@[simp] theorem outcome_skip (path : Path) (rest : Run) :
    (skip path rest).outcome = rest.outcome := rfl
@[simp] theorem skipped_skip (path : Path) (rest : Run) :
    (skip path rest).skipped = path :: rest.skipped := rfl

section Behind

variable (call : ParseCall) (reports : List Report) (passed : Bool) (rest : Run)

@[simp] theorem calls_behind : (behind call reports passed rest).calls = call :: rest.calls := rfl
@[simp] theorem skipped_behind : (behind call reports passed rest).skipped = rest.skipped := rfl
@[simp] theorem outcome_behind :
    (behind call reports passed rest).outcome = rest.outcome.map (passed && ·) := rfl

end Behind

/-- What a run tells about a file that was checked: its broken rules, or that there are none. -/
def fileReports (path : Path) (broken : List Failed) : List Report :=
  if broken.isEmpty then [.passed path] else broken.map .broken

theorem ofPaths_cons_checked {defines : DefineTable} {path : Path} {parsed : ParsedSource}
    {broken : List Failed} (hx : linter.config.isExcluded path = .ok false)
    (hp : parse path defines = .ok parsed) (hb : linter.lint parsed.path parsed.tree = .ok broken)
    (rest : List Path) :
    ofPaths linter parse defines (path :: rest) =
      behind ⟨path, defines⟩ (fileReports path broken) broken.isEmpty
        (ofPaths linter parse parsed.defines rest) := by
  cases broken with
  | nil => simp [ofPaths, hx, hp, hb, fileReports]
  | cons failed more => simp [ofPaths, hx, hp, hb, fileReports]

/-- What a run does with its first file, whatever the files behind it are. -/
inductive Turn (linter : Linter) (parse : ParseFile) (defines : DefineTable) (path : Path) : Prop
  /-- The patterns of excluded files cannot be read. -/
  | refused (fault : Pattern.Fault) (hx : linter.config.isExcluded path = .error fault)
      (h : ∀ rest, ofPaths linter parse defines (path :: rest) = failed [] (.pattern fault))
  | excluded (hx : linter.config.isExcluded path = .ok true)
      (h : ∀ rest, ofPaths linter parse defines (path :: rest) =
        skip path (ofPaths linter parse defines rest))
  /-- The parser fails. -/
  | faulty (fault : Fault) (hx : linter.config.isExcluded path = .ok false)
      (hp : parse path defines = .error (.fault fault))
      (h : ∀ rest, ofPaths linter parse defines (path :: rest) =
        failed [⟨path, defines⟩] (.parser fault))
  | unparsed (e : SourceError) (hx : linter.config.isExcluded path = .ok false)
      (hp : parse path defines = .error (.error e))
      (h : ∀ rest, ofPaths linter parse defines (path :: rest) =
        behind ⟨path, defines⟩ [.unparsed e] false (ofPaths linter parse defines rest))
  /-- A rule fails. -/
  | stopped (parsed : ParsedSource) (fault : PluginFault)
      (hx : linter.config.isExcluded path = .ok false) (hp : parse path defines = .ok parsed)
      (hb : linter.lint parsed.path parsed.tree = .error fault)
      (h : ∀ rest, ofPaths linter parse defines (path :: rest) =
        failed [⟨path, defines⟩] (.rule fault))
  | checked (parsed : ParsedSource) (broken : List Failed)
      (hx : linter.config.isExcluded path = .ok false) (hp : parse path defines = .ok parsed)
      (hb : linter.lint parsed.path parsed.tree = .ok broken)
      (h : ∀ rest, ofPaths linter parse defines (path :: rest) =
        behind ⟨path, defines⟩ (fileReports path broken) broken.isEmpty
          (ofPaths linter parse parsed.defines rest))

theorem turn (linter : Linter) (parse : ParseFile) (defines : DefineTable) (path : Path) :
    Turn linter parse defines path := by
  cases hx : linter.config.isExcluded path with
  | error fault => exact .refused fault hx fun rest => by simp only [ofPaths, hx]
  | ok excluded =>
  cases excluded with
  | true => exact .excluded hx fun rest => by simp only [ofPaths, hx]
  | false =>
  cases hp : parse path defines with
  | error failure =>
    cases failure with
    | fault fault => exact .faulty fault hx hp fun rest => by simp only [ofPaths, hx, hp]
    | error e => exact .unparsed e hx hp fun rest => by simp only [ofPaths, hx, hp]
  | ok parsed =>
    cases hb : linter.lint parsed.path parsed.tree with
    | error fault => exact .stopped parsed fault hx hp hb fun rest => by simp only [ofPaths, hx, hp, hb]
    | ok broken => exact .checked parsed broken hx hp hb (ofPaths_cons_checked hx hp hb)

/-- The three things that a run does with its first file, whatever the files behind it are. -/
theorem ofPaths_step (h : Steady linter parse) (defines : DefineTable) (path : Path) :
    (linter.config.keeps path = false ∧ ∀ rest, ofPaths linter parse defines (path :: rest) =
        skip path (ofPaths linter parse defines rest)) ∨
    (∃ e, linter.config.keeps path = true ∧ parse path defines = .error (.error e) ∧
      ∀ rest, ofPaths linter parse defines (path :: rest) =
        behind ⟨path, defines⟩ [.unparsed e] false (ofPaths linter parse defines rest)) ∨
    (∃ parsed broken, linter.config.keeps path = true ∧ parse path defines = .ok parsed ∧
      linter.lint parsed.path parsed.tree = .ok broken ∧
      ∀ rest, ofPaths linter parse defines (path :: rest) =
        behind ⟨path, defines⟩ (fileReports path broken) broken.isEmpty
          (ofPaths linter parse parsed.defines rest)) := by
  cases turn linter parse defines path with
  | refused fault hx _ =>
    obtain ⟨excluded, hok⟩ := Config.matchesAny_ok h.patterns path.toString
    exact absurd (hok.symm.trans hx) nofun
  | excluded hx hs => exact .inl ⟨Config.keeps_of_isExcluded hx, hs⟩
  | faulty fault _ hp _ => exact absurd hp (h.parser path defines fault)
  | unparsed e hx hp hs => exact .inr (.inl ⟨e, Config.keeps_of_isExcluded hx, hp, hs⟩)
  | stopped parsed fault _ _ hb _ =>
    obtain ⟨broken, hok⟩ := Linter.lint_ok h.rules parsed.path parsed.tree
    exact absurd (hok.symm.trans hb) nofun
  | checked parsed broken hx hp hb hs =>
    exact .inr (.inr ⟨parsed, broken, Config.keeps_of_isExcluded hx, hp, hb, hs⟩)

end Run

end HdlLint
