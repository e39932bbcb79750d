import HdlLint.Proofs.Config.Written
import HdlLint.Proofs.Linter.Operations
import HdlLint.Proofs.Program.Inputs
import HdlLint.Proofs.Run.Stop
import HdlLint.Proofs.Run.Verdict

/-!
# The stages of a program

A program that is to lint finds its configuration (`Configured`), loads its plugins, reads its
filelists and goes over its source files. It fails at the first of these stages that fails
(`FailsEarly`, `FailsAt`), or it completes (`Completes`): one of the three holds (`execute_ends`), and
each says what the program does, with whatever plugins and whatever parser.
-/

namespace HdlLint

open CommandLine (Options)

namespace Program

variable {h : Host} {o : Options}

/-! ## Plugins -/

/-- Plugins cannot be loaded because of the first one that cannot. -/
theorem loadPlugins_eq_error_iff {l : Linter} {paths : List Path} {fault : PluginFault} :
    loadPlugins h l paths = .error fault ↔
      ∃ before path after l' l'', paths = before ++ path :: after ∧
        loadPlugins h l before = .ok l' ∧ l'.load h.plugins h.files path = (l'', some fault) := by
  induction paths generalizing l with
  | nil => simp [loadPlugins]
  | cons first paths ih =>
    rw [loadPlugins]
    constructor
    · intro hfault
      split at hfault
      · next l' hl =>
        obtain ⟨before, path, after, l₁, l₂, rfl, hbefore, hload⟩ := ih.mp hfault
        exact ⟨first :: before, path, after, l₁, l₂, rfl, by rw [loadPlugins, hl]; exact hbefore, hload⟩
      · next l' fault' hl =>
        obtain rfl := Except.error.inj hfault
        exact ⟨[], first, paths, l, l', rfl, rfl, hl⟩
    · rintro ⟨before, path, after, l₁, l₂, hpaths, hbefore, hload⟩
      cases before with
      | nil =>
        obtain ⟨rfl, rfl⟩ := List.cons.inj hpaths
        obtain rfl := Except.ok.inj hbefore
        rw [hload]
      | cons first' before =>
        obtain ⟨rfl, rfl⟩ := List.cons.inj hpaths
        rw [loadPlugins] at hbefore
        split at hbefore
        · exact ih.mpr ⟨before, path, after, l₁, l₂, rfl, hbefore, hload⟩
        · cases hbefore

theorem config_loadPlugins {l l' : Linter} {paths : List Path} (hl : loadPlugins h l paths = .ok l') :
    l'.config = l.config := by
  induction paths generalizing l with
  | nil => obtain rfl := Except.ok.inj hl; rfl
  | cons path paths ih =>
    rw [loadPlugins] at hl
    split at hl
    · next l₁ hload =>
      obtain ⟨more, hmore⟩ := Linter.apply_extends l (.load h.plugins h.files path)
      rw [Linter.Operation.apply, hload] at hmore
      rw [ih hl, hmore.config]
    · cases hl

theorem config_ofConfig (c : Config) : (Linter.ofConfig c).config = c := by
  obtain ⟨rs, l', hl', -, hcases⟩ := Linter.registerAll_cases (Linter.empty c) Linter.builtInOrigin
    (RuleObject.numbered 0 (Linter.enabledRules c))
  have hbuild : Linter.ofConfig c = l' := by
    rw [Linter.ofConfig, Linter.build]
    rcases hcases with ⟨-, hall⟩ | ⟨_, _, _, -, -, hall⟩ <;> rw [hall]
  rw [hbuild, hl'.config]
  rfl

/-! ## Filelists -/

/-- The filelists that a run opens, in order, if none of them is opened from within itself. -/
def openedFilelists (h : Host) (o : Options) : List Path :=
  o.filelists.flatMap (Filelist.opened h.files h.environment (h.files.entries.length + 1))

/-- Whether no filelist refers to itself, directly or through others. -/
def Acyclic (h : Host) : Prop :=
  ∀ path, ¬ Filelist.Reaches h.files h.environment path path

theorem inputs_eq_collect (hacyclic : Acyclic h) (o : Options) :
    inputs h o = Filelist.collectIfRead h.files ⟨o.files, o.includes, definesOf o⟩
      (openedFilelists h o) (filelistLines h o) :=
  addFilelists_eq (fun _ _ => Filelist.load_ne_endless fun q _ => hacyclic q) _

/-- The inputs of a run fail at the first filelist that cannot be read. -/
theorem inputs_eq_error_iff (hacyclic : Acyclic h) {fault : FilelistFault} :
    inputs h o = .error fault ↔
      ∃ before path after cause, openedFilelists h o = before ++ path :: after ∧
        (∀ q ∈ before, ∃ text, h.files.readText q = .ok text) ∧
        h.files.readText path = .error cause ∧ fault = .unreadable path cause := by
  rw [inputs_eq_collect hacyclic, Filelist.collectIfRead, ← Filelist.firstUnreadable_eq_some_iff]
  cases Filelist.firstUnreadable h.files (openedFilelists h o) <;> simp

/-! ## Configurations -/

/-- What a program lints with: a configuration, and the warnings about it. -/
inductive Configured (h : Host) (o : Options) : (warnings : String) → Config → Prop
  | absent (hsample : o.sample = false)
      (hs : Config.search? h.files o.config h.files.currentPath = .ok none) :
      Configured h o (noConfigWarning o.config) Config.default.enableAll
  | loaded {path : Path} {warnings : String} {c : Config} (hsample : o.sample = false)
      (hs : Config.search? h.files o.config h.files.currentPath = .ok (some path))
      (hl : Config.load h.files path = (warnings, .ok c)) (hupdate : o.update = false) :
      Configured h o warnings c

theorem settled_of_load {fs : FileSystem} {path : Path} {warnings : String} {c : Config}
    (hl : Config.load fs path = (warnings, .ok c)) : c.Settled := by
  rw [Config.load] at hl
  split at hl
  · cases hl
  · next text _ =>
    obtain ⟨-, hresult⟩ := Prod.mk.inj hl
    cases hreading : Config.ofText (String.ofList text) with
    | mk unknown outcome =>
      rw [Config.Reading.result, hreading] at hresult
      cases outcome with
      | error cause => cases hresult
      | ok c' =>
        obtain rfl := Except.ok.inj hresult
        exact Config.settled_of_ofText hreading

theorem Configured.patterns {warnings : String} {c : Config} (hc : Configured h o warnings c) :
    ∀ p ∈ c.excludePaths, Pattern.check p = .ok () := by
  cases hc with
  | absent => exact nofun
  | loaded _ _ hl _ => exact (settled_of_load hl).patterns

theorem Configured.execute_eq {warnings : String} {c : Config} (hc : Configured h o warnings c) :
    execute h o = lint h o warnings c := by
  cases hc with
  | absent hsample hs => simp [execute, hsample, hs]
  | loaded hsample hs hl hupdate => simp [execute, hsample, hs, hl, hupdate]

/-! ## Source files -/

/-- What a run is made of, once its plugins are loaded and its filelists are read. -/
theorem prepare_eq_ok_iff {c : Config} {run : Run} :
    prepare h o c = .ok run ↔
      ∃ l i, loadPlugins h (Linter.ofConfig c) o.plugins = .ok l ∧ inputs h o = .ok i ∧
        run = Run.ofPaths l (parseFile h o i.includes) i.defines i.files := by
  rw [prepare]
  cases loadPlugins h (Linter.ofConfig c) o.plugins with
  | error fault => simp
  | ok l =>
    cases inputs h o with
    | error fault => simp
    | ok i => simp [eq_comm]

/-! ## All stages -/

/-- A run that a program starts, behind some warnings. -/
def Prepared (h : Host) (o : Options) (warnings : String) (run : Run) : Prop :=
  ∃ c, Configured h o warnings c ∧ prepare h o c = .ok run

/-- The first stage of a program that fails, before any source file is looked at: the warnings that
were written by then, and the fatal error. -/
inductive FailsEarly (h : Host) (o : Options) : (warnings : String) → FatalError → Prop
  /-- The system does not let the program look for the configuration file. -/
  | search {refusal : Refusal} (hsample : o.sample = false)
      (hs : Config.search? h.files o.config h.files.currentPath = .error refusal) :
      FailsEarly h o "" (.search refusal)
  /-- The configuration file that is found holds no configuration. -/
  | load {path : Path} {warnings : String} {fault : Config.Fault} (hsample : o.sample = false)
      (hs : Config.search? h.files o.config h.files.currentPath = .ok (some path))
      (hl : Config.load h.files path = (warnings, .error fault)) :
      FailsEarly h o warnings (.config fault)
  /-- The configuration file cannot be brought up to date. -/
  | update {path : Path} {warnings : String} {c : Config} {fault : Config.Fault}
      (hsample : o.sample = false) (hupdate : o.update = true)
      (hs : Config.search? h.files o.config h.files.currentPath = .ok (some path))
      (hl : Config.load h.files path = (warnings, .ok c))
      (hst : Config.store h.files path c = .error fault) :
      FailsEarly h o warnings (.config fault)
  /-- A plugin cannot be loaded, after those before it were. -/
  | plugin {warnings : String} {c : Config} {before after : List Path} {path : Path}
      {l l' : Linter} {fault : PluginFault} (hc : Configured h o warnings c)
      (hplugins : o.plugins = before ++ path :: after)
      (hbefore : loadPlugins h (Linter.ofConfig c) before = .ok l)
      (hl : l.load h.plugins h.files path = (l', some fault)) :
      FailsEarly h o warnings (.plugin fault)
  /-- A filelist cannot be read, after those that are opened before it were. -/
  | filelist {warnings : String} {c : Config} {l : Linter} {before after : List Path} {path : Path}
      {cause : FileSystem.ReadFault} (hc : Configured h o warnings c)
      (hl : loadPlugins h (Linter.ofConfig c) o.plugins = .ok l)
      (hopened : openedFilelists h o = before ++ path :: after)
      (hbefore : ∀ q ∈ before, ∃ text, h.files.readText q = .ok text)
      (hread : h.files.readText path = .error cause) :
      FailsEarly h o warnings (.filelist (.unreadable path cause))

/-- A source file ends the run, after all earlier stages went well: the warnings that were written by
then, and the run over the files before, which goes to its end. -/
def FailsAt (h : Host) (o : Options) (warnings : String) (before : Run) (fault : RunFault) : Prop :=
  ∃ c l i paths, Configured h o warnings c ∧ loadPlugins h (Linter.ofConfig c) o.plugins = .ok l ∧
    inputs h o = .ok i ∧
    Run.Stop l (parseFile h o i.includes) i.defines i.files paths fault ∧
    before = Run.ofPaths l (parseFile h o i.includes) i.defines paths

/-- How a program ends that does not fail. -/
inductive Completes (h : Host) (o : Options) : Outcome → Prop
  | sample (hsample : o.sample = true) : Completes h o ⟨.ok 0, Config.default.toText, "", h.files⟩
  | updated {path : Path} {warnings : String} {c : Config} {files : FileSystem}
      (hsample : o.sample = false) (hupdate : o.update = true)
      (hs : Config.search? h.files o.config h.files.currentPath = .ok (some path))
      (hl : Config.load h.files path = (warnings, .ok c))
      (hst : Config.store h.files path c = .ok files) : Completes h o ⟨.ok 0, "", warnings, files⟩
  | ran {warnings : String} {run : Run} {passed : Bool} (hrun : Prepared h o warnings run)
      (hpassed : run.outcome = .ok passed) :
      Completes h o ⟨.ok (if passed then 0 else 1), Report.write h.files o.verbosity run.reports,
        warnings ++ run.warnings o.verbosity, h.files⟩

theorem Prepared.execute_eq {warnings : String} {run : Run} (hrun : Prepared h o warnings run) :
    execute h o = Outcome.ofRun h.files o.verbosity warnings run := by
  obtain ⟨c, hc, hprepare⟩ := hrun
  rw [hc.execute_eq, lint, hprepare]

theorem FailsEarly.execute_eq (hacyclic : Acyclic h) {warnings : String} {e : FatalError}
    (hf : FailsEarly h o warnings e) : execute h o = Outcome.fatal h.files "" warnings e := by
  cases hf with
  | search hsample hs => simp [execute, hsample, hs]
  | load hsample hs hl => simp [execute, hsample, hs, hl]
  | update hsample hupdate hs hl hst => simp [execute, hsample, hs, hl, hupdate, hst]
  | plugin hc hplugins hbefore hl =>
    have hload := loadPlugins_eq_error_iff.mpr ⟨_, _, _, _, _, hplugins, hbefore, hl⟩
    simp only [hc.execute_eq, lint, prepare, hload]
  | filelist hc hl hopened hbefore hread =>
    have hinputs := (inputs_eq_error_iff hacyclic).mpr ⟨_, _, _, _, hopened, hbefore, hread, rfl⟩
    simp only [hc.execute_eq, lint, prepare, hl, hinputs]

theorem FailsAt.execute_eq {warnings : String} {before : Run} {fault : RunFault}
    (hf : FailsAt h o warnings before fault) :
    execute h o = Outcome.fatal h.files (Report.write h.files o.verbosity before.reports)
      (warnings ++ before.warnings o.verbosity) (.ofRun fault) := by
  obtain ⟨c, l, i, paths, hc, hl, hi, hstop, rfl⟩ := hf
  obtain ⟨houtcome, hreports, hskipped⟩ := hstop.ofPaths_eq
  simp only [hc.execute_eq, lint, prepare, hl, hi, Outcome.ofRun, houtcome, hreports, Run.warnings,
    hskipped]

/-- It is not for a pattern: those of a configuration can be read. -/
theorem FailsAt.ne_pattern {warnings : String} {before : Run} {fault : Pattern.Fault} :
    ¬ FailsAt h o warnings before (.pattern fault) := by
  rintro ⟨c, l, i, paths, hc, hl, hi, hstop, rfl⟩
  have hpatterns : ∀ p ∈ l.config.excludePaths, Pattern.check p = .ok () := by
    rw [config_loadPlugins hl, config_ofConfig]
    exact hc.patterns
  obtain ⟨path, after, -, hends⟩ := hstop.failing
  cases hends with
  | pattern hx =>
    obtain ⟨excluded, hok⟩ := Config.matchesAny_ok hpatterns path.toString
    cases hok.symm.trans hx

theorem Completes.execute_eq {out : Outcome} (hout : Completes h o out) : execute h o = out := by
  cases hout with
  | sample hsample => simp [execute, hsample]
  | updated hsample hupdate hs hl hst => simp [execute, hsample, hs, hl, hupdate, hst]
  | ran hrun hpassed => simp only [hrun.execute_eq, Outcome.ofRun, hpassed]

/-- A program that is configured to lint fails at a plugin, a filelist or a source file, or it goes
over all source files. -/
theorem Configured.ends (hacyclic : Acyclic h) {warnings : String} {c : Config}
    (hc : Configured h o warnings c) :
    (∃ e, FailsEarly h o warnings e) ∨ (∃ before fault, FailsAt h o warnings before fault) ∨
      ∃ run passed, Prepared h o warnings run ∧ run.outcome = .ok passed := by
  cases hl : loadPlugins h (Linter.ofConfig c) o.plugins with
  | error fault =>
    obtain ⟨before, path, after, l, l', hplugins, hbefore, hload⟩ := loadPlugins_eq_error_iff.mp hl
    exact .inl ⟨_, .plugin hc hplugins hbefore hload⟩
  | ok l =>
  cases hi : inputs h o with
  | error fault =>
    obtain ⟨before, path, after, cause, hopened, hbefore, hread, rfl⟩ :=
      (inputs_eq_error_iff hacyclic).mp hi
    exact .inl ⟨_, .filelist hc hl hopened hbefore hread⟩
  | ok i =>
  cases hout : (Run.ofPaths l (parseFile h o i.includes) i.defines i.files).outcome with
  | ok passed => exact .inr (.inr ⟨_, passed, ⟨c, hc, prepare_eq_ok_iff.mpr ⟨l, i, hl, hi, rfl⟩⟩, hout⟩)
  | error fault =>
    obtain ⟨paths, hstop⟩ := Run.exists_stop hout
    exact .inr (.inl ⟨_, fault, c, l, i, paths, hc, hl, hi, hstop, rfl⟩)

/-- A program fails at its first failing stage, or it does not fail. -/
theorem execute_ends (hacyclic : Acyclic h) (o : Options) :
    (∃ warnings e, FailsEarly h o warnings e) ∨
      (∃ warnings before fault, FailsAt h o warnings before fault) ∨ Completes h o (execute h o) := by
  have hlints : ∀ {warnings c}, Configured h o warnings c →
      (∃ warnings e, FailsEarly h o warnings e) ∨
        (∃ warnings before fault, FailsAt h o warnings before fault) ∨
          Completes h o (execute h o) := by
    intro warnings c hc
    rcases hc.ends hacyclic with hf | hf | ⟨run, passed, hrun, hpassed⟩
    · exact .inl ⟨warnings, hf⟩
    · exact .inr (.inl ⟨warnings, hf⟩)
    · have hout := Completes.ran hrun hpassed
      exact .inr (.inr (hout.execute_eq ▸ hout))
  cases hsample : o.sample with
  | true =>
    have hout := Completes.sample (h := h) hsample
    exact .inr (.inr (hout.execute_eq ▸ hout))
  | false =>
  cases hs : Config.search? h.files o.config h.files.currentPath with
  | error refusal => exact .inl ⟨_, _, .search hsample hs⟩
  | ok found =>
  cases found with
  | none => exact hlints (.absent hsample hs)
  | some path =>
  cases hl : Config.load h.files path with
  | mk warnings result =>
  cases result with
  | error fault => exact .inl ⟨_, _, .load hsample hs hl⟩
  | ok c =>
  cases hupdate : o.update with
  | false => exact hlints (.loaded hsample hs hl hupdate)
  | true =>
  cases hst : Config.store h.files path c with
  | error fault => exact .inl ⟨_, _, .update hsample hupdate hs hl hst⟩
  | ok files =>
    have hout := Completes.updated hsample hupdate hs hl hst
    exact .inr (.inr (hout.execute_eq ▸ hout))

end Program

end HdlLint
