import HdlLint.Proofs.Config.Nearest
import HdlLint.Proofs.FileSystem.SourceLine
import HdlLint.Proofs.Filelist.Termination
import HdlLint.Proofs.Program.Stages
import HdlLint.Verilog.Reader

/-!
# Exit codes and what is left behind

A program whose command line asks for a run ends with the code 2 if and only if one of its stages
fails and the failure has a message: the message of the first one is the last line of what it
writes about errors. Otherwise it ends with 0 or 1, as its run passes or not, or it breaks off
without a code, where the first failure is one that nothing catches (`start_exit`). What can be such
a failure is `FatalError.Escapes`: a look for a file that the system refuses, some causes in the
configuration file (`Config.Cause.Escapes`, `start_breaks_off`), and what a plugin or the parser
raises where nothing is caught.

All this is about a program on a `Host`, with any plugins, any parser and any refusals of the system
to let it look at a file; what the pictures of files, plugins and programs leave out is left out here
too.
-/

namespace HdlLint

open CommandLine (Options)

/-! ## Failures that are not caught -/

/-- A cause that is not caught where a configuration is read: a number or a count of repetitions that
is too large, and options of a pattern that contradict each other. -/
inductive Config.Cause.Escapes : Config.Cause → Prop
  | number : Escapes (.document .numberTooLong)
  | count (pattern : String) : Escapes (.badPattern pattern .countTooLarge)
  | options (pattern : String) : Escapes (.badPattern pattern .contradictoryOptions)

/-- A cause that is not caught where a plugin is loaded. -/
inductive LoadFault.Escapes : LoadFault → Prop
  | raised {fault : Fault} (hf : fault.escapes = true) : Escapes (.raised fault)
  | entryRaised {fault : Fault} (hf : fault.escapes = true) : Escapes (.entryRaised fault)
  | escaped (fault : Fault) : Escapes (.escaped fault)

/-- A fault of a plugin that is not caught, from its loading to the answers of its rules. -/
inductive PluginFault.Escapes : PluginFault → Prop
  | load (path : Path) {cause : LoadFault} (hc : cause.Escapes) : Escapes (.load path cause)
  | nameless (origin : String) {fault : Fault} (hf : fault.escapes = true) :
      Escapes (.nameless origin fault)
  | check (name origin : String) {fault : Fault} (hf : fault.escapes = true) :
      Escapes (.check name origin fault)
  | describe (name origin : String) {fault : Fault} (hf : fault.escapes = true) :
      Escapes (.describe name origin fault)
  | escaped (name : String) (fault : Fault) : Escapes (.escaped name fault)

/-- A failure of a stage that is not caught. -/
inductive FatalError.Escapes : FatalError → Prop
  | search (refusal : Refusal) : Escapes (.search refusal)
  | config (origin : String) {cause : Config.Cause} (hc : cause.Escapes) :
      Escapes (.config (.refused origin cause))
  | plugin {fault : PluginFault} (hf : fault.Escapes) : Escapes (.plugin fault)
  | parser (fault : Fault) : Escapes (.parser fault)

theorem Fault.map_message?_eq_none_iff {fault : Fault} {f : String → String} :
    fault.message?.map f = none ↔ fault.escapes = true := by
  cases h : fault.escapes <;> simp [Fault.message?, h]

theorem LoadFault.message?_eq_none_iff {cause : LoadFault} :
    cause.message? = none ↔ cause.Escapes := by
  constructor
  · intro hm
    cases cause with
    | raised fault => exact .raised (by simpa [LoadFault.message?, Fault.message?] using hm)
    | entryRaised fault => exact .entryRaised (by simpa [LoadFault.message?, Fault.shown?] using hm)
    | escaped fault => exact .escaped fault
    | _ => cases hm
  · rintro (hf | hf | fault)
    · simp [LoadFault.message?, Fault.message?, hf]
    · simp [LoadFault.message?, Fault.shown?, hf]
    · rfl

theorem PluginFault.message?_eq_none_iff {fault : PluginFault} :
    fault.message? = none ↔ fault.Escapes := by
  constructor
  · intro hm
    cases fault with
    | load path cause =>
      exact .load path (LoadFault.message?_eq_none_iff.mp (Option.map_eq_none_iff.mp hm))
    | nameless origin fault => exact .nameless origin (Fault.map_message?_eq_none_iff.mp hm)
    | check name origin fault => exact .check name origin (Fault.map_message?_eq_none_iff.mp hm)
    | describe name origin fault =>
      exact .describe name origin (Fault.map_message?_eq_none_iff.mp hm)
    | escaped name fault => exact .escaped name fault
    | _ => cases hm
  · intro hf
    cases hf with
    | load path hc => exact Option.map_eq_none_iff.mpr (LoadFault.message?_eq_none_iff.mpr hc)
    | nameless origin hf => exact Fault.map_message?_eq_none_iff.mpr hf
    | check name origin hf => exact Fault.map_message?_eq_none_iff.mpr hf
    | describe name origin hf => exact Fault.map_message?_eq_none_iff.mpr hf
    | escaped name fault => rfl

theorem FatalError.Escapes.message?_eq {e : FatalError} (he : e.Escapes) : e.message? = none := by
  cases he with
  | search refusal => rfl
  | config origin hc => cases hc <;> rfl
  | plugin hf => exact PluginFault.message?_eq_none_iff.mpr hf
  | parser fault => rfl

namespace Program

variable {h : Host} {o : Options}

theorem escapes_of_refused {origin : String} {cause : Config.Cause}
    (hm : (FatalError.config (.refused origin cause)).message? = none) : cause.Escapes := by
  cases cause with
  | document fault =>
    cases fault with
    | malformed => cases hm
    | numberTooLong => exact .number
  | badPattern pattern fault =>
    cases fault with
    | malformed => cases hm
    | countTooLarge => exact .count pattern
    | contradictoryOptions => exact .options pattern
  | _ => cases hm

theorem nul_of_unopened {path : Path} {fault : FileSystem.ReadFault}
    (hm : (FatalError.config (.unopened path fault)).message? = none) : fault = .file .nulInName := by
  cases fault with
  | encoding fault => cases hm
  | file fault =>
    cases fault with
    | nulInName => rfl
    | _ => cases hm

theorem nul_of_unwritten {path : Path} {fault : FileFault}
    (hm : (FatalError.config (.unwritten path fault)).message? = none) : fault = .nulInName := by
  cases fault with
  | nulInName => rfl
  | _ => cases hm

/-- No null character is in the path of a configuration file that is found. -/
theorem place_ne_nul_of_search {path : Path}
    (hs : Config.search? h.files o.config h.files.currentPath = .ok (some path)) :
    h.files.place path ≠ .error .nulInName := by
  obtain ⟨k, hk, rfl⟩ := Config.search?_eq_some_iff.mp hs
  exact FileSystem.place_ne_nul_of_exists hk.exists?

/-- A failure before the source files that has no message is not caught, where no filelist has a name
that no file can have. -/
theorem FailsEarly.escapes (hnul : ∀ path ∈ openedFilelists h o, ¬ path.HasNul)
    {warnings : String} {e : FatalError} (hf : FailsEarly h o warnings e) (hm : e.message? = none) :
    e.Escapes := by
  cases hf with
  | search => exact .search _
  | load _ hs hl =>
    rw [Config.load] at hl
    split at hl
    · next hread =>
      obtain ⟨-, hfault⟩ := Prod.mk.inj hl
      obtain rfl := Except.error.inj hfault
      obtain rfl := nul_of_unopened hm
      exact absurd (FileSystem.place_of_readText_nul hread) (place_ne_nul_of_search hs)
    · obtain ⟨-, hresult⟩ := Prod.mk.inj hl
      rw [Config.Reading.result] at hresult
      split at hresult
      · cases hresult
      · obtain rfl := Except.error.inj hresult
        exact .config _ (escapes_of_refused hm)
  | update _ _ hs _ hst =>
    rw [Config.store] at hst
    split at hst
    · cases hst
    · next hwrite =>
      obtain rfl := Except.error.inj hst
      obtain rfl := nul_of_unwritten hm
      exact absurd (FileSystem.place_of_write_nul hwrite) (place_ne_nul_of_search hs)
  | plugin => exact .plugin (PluginFault.message?_eq_none_iff.mp hm)
  | @filelist _ _ _ before after path cause _ _ hopened _ hread =>
    have hmem : path ∈ openedFilelists h o := by
      rw [hopened]
      exact List.mem_append_right _ List.mem_cons_self
    rw [message?_unreadable fun he => hnul path hmem
      (FileSystem.hasNul_of_place (FileSystem.place_of_readText_nul (he ▸ hread)))] at hm
    cases hm

theorem FailsAt.escapes {warnings : String} {before : Run} {fault : RunFault}
    (hf : FailsAt h o warnings before fault) (hm : (FatalError.ofRun fault).message? = none) :
    (FatalError.ofRun fault).Escapes := by
  cases fault with
  | pattern fault => exact absurd hf FailsAt.ne_pattern
  | rule fault => exact .plugin (PluginFault.message?_eq_none_iff.mp hm)
  | parser fault => exact .parser fault

/-! ## Failures before the source files -/

theorem Configured.unique {warnings warnings' : String} {c c' : Config}
    (hc : Configured h o warnings c) (hc' : Configured h o warnings' c') : c = c' := by
  cases hc with
  | absent _ hs =>
    cases hc' with
    | absent => rfl
    | loaded _ hs' => rw [hs] at hs'; cases hs'
  | loaded _ hs hl _ =>
    cases hc' with
    | absent _ hs' => rw [hs] at hs'; cases hs'
    | loaded _ hs' hl' _ =>
      obtain rfl := Option.some.inj (Except.ok.inj (hs.symm.trans hs'))
      exact Except.ok.inj (Prod.mk.inj (hl.symm.trans hl')).2

/-- The configuration file that is found is brought up to date. -/
def Updates (h : Host) (o : Options) : Prop :=
  ∃ path warnings c files, o.sample = false ∧ o.update = true ∧
    Config.search? h.files o.config h.files.currentPath = .ok (some path) ∧
    Config.load h.files path = (warnings, .ok c) ∧ Config.store h.files path c = .ok files

/-- The first stage that fails does so in a certain way: before the source files, or at one of them. -/
def Fails (h : Host) (o : Options) (e : FatalError) : Prop :=
  (∃ warnings, FailsEarly h o warnings e) ∨
    ∃ warnings before fault, FailsAt h o warnings before fault ∧ e = .ofRun fault

/-- A stage fails, and the failure has a message. -/
def EndsFatally (h : Host) (o : Options) : Prop :=
  ∃ e message, Fails h o e ∧ e.message? = some message

/-- A sample is written, the configuration is brought up to date, or a run passes. -/
def EndsWell (h : Host) (o : Options) : Prop :=
  o.sample = true ∨ Updates h o ∨
    ∃ warnings run, Prepared h o warnings run ∧ run.outcome = .ok true

/-- A run goes to its end and does not pass. -/
def EndsBadly (h : Host) (o : Options) : Prop :=
  ∃ warnings run, Prepared h o warnings run ∧ run.outcome = .ok false

/-- A stage fails in a way that is not caught. -/
def BreaksOff (h : Host) (o : Options) (e : FatalError) : Prop :=
  Fails h o e ∧ e.Escapes

theorem fatal_of_message {files : FileSystem} {stdout stderr message : String} {e : FatalError}
    (hm : e.message? = some message) :
    Outcome.fatal files stdout stderr e =
      ⟨.ok 2, stdout, stderr ++ Report.errorLine message ++ "\n", files⟩ := by
  rw [Outcome.fatal, hm]

theorem fatal_of_escapes {files : FileSystem} {stdout stderr : String} {e : FatalError}
    (he : e.Escapes) : Outcome.fatal files stdout stderr e = ⟨.error e, stdout, stderr, files⟩ := by
  rw [Outcome.fatal, he.message?_eq]

theorem Fails.execute_eq (hacyclic : Acyclic h) {e : FatalError} (hf : Fails h o e) :
    ∃ stdout stderr, execute h o = Outcome.fatal h.files stdout stderr e := by
  rcases hf with ⟨warnings, hf⟩ | ⟨warnings, before, fault, hf, rfl⟩
  · exact ⟨_, _, hf.execute_eq hacyclic⟩
  · exact ⟨_, _, hf.execute_eq⟩

theorem EndsFatally.exit (hacyclic : Acyclic h) (hf : EndsFatally h o) :
    (execute h o).exit = .ok 2 := by
  obtain ⟨e, message, hf, hm⟩ := hf
  obtain ⟨stdout, stderr, heq⟩ := hf.execute_eq hacyclic
  rw [heq, fatal_of_message hm]

theorem EndsWell.exit (hw : EndsWell h o) : (execute h o).exit = .ok 0 := by
  rcases hw with hsample | ⟨path, warnings, c, files, hsample, hupdate, hs, hl, hst⟩ |
    ⟨warnings, run, hrun, hpassed⟩
  · rw [(Completes.sample hsample).execute_eq]
  · rw [(Completes.updated hsample hupdate hs hl hst).execute_eq]
  · rw [(Completes.ran hrun hpassed).execute_eq]
    rfl

theorem EndsBadly.exit (hb : EndsBadly h o) : (execute h o).exit = .ok 1 := by
  obtain ⟨warnings, run, hrun, hpassed⟩ := hb
  rw [(Completes.ran hrun hpassed).execute_eq]
  rfl

theorem BreaksOff.exit (hacyclic : Acyclic h) {e : FatalError} (hb : BreaksOff h o e) :
    (execute h o).exit = .error e := by
  obtain ⟨stdout, stderr, heq⟩ := hb.1.execute_eq hacyclic
  rw [heq, fatal_of_escapes hb.2]

theorem Fails.ends (hnul : ∀ path ∈ openedFilelists h o, ¬ path.HasNul) {e : FatalError}
    (hf : Fails h o e) : EndsFatally h o ∨ ∃ e, BreaksOff h o e := by
  cases hm : e.message? with
  | some message => exact .inl ⟨e, message, hf, hm⟩
  | none =>
    refine .inr ⟨e, hf, ?_⟩
    rcases hf with ⟨warnings, hf⟩ | ⟨warnings, before, fault, hf, rfl⟩
    · exact hf.escapes hnul hm
    · exact hf.escapes hm

theorem ends (hacyclic : Acyclic h) (hnul : ∀ path ∈ openedFilelists h o, ¬ path.HasNul) :
    EndsFatally h o ∨ EndsWell h o ∨ EndsBadly h o ∨ ∃ e, BreaksOff h o e := by
  have hfails : ∀ e, Fails h o e →
      EndsFatally h o ∨ EndsWell h o ∨ EndsBadly h o ∨ ∃ e, BreaksOff h o e := fun e hf =>
    (hf.ends hnul).imp_right fun hb => .inr (.inr hb)
  rcases execute_ends hacyclic o with ⟨warnings, e, hf⟩ | ⟨warnings, before, fault, hf⟩ | hout
  · exact hfails e (.inl ⟨warnings, hf⟩)
  · exact hfails _ (.inr ⟨warnings, before, fault, hf, rfl⟩)
  · generalize execute h o = out at hout
    cases hout with
    | sample hsample => exact .inr (.inl (.inl hsample))
    | updated hsample hupdate hs hl hst =>
      exact .inr (.inl (.inr (.inl ⟨_, _, _, _, hsample, hupdate, hs, hl, hst⟩)))
    | @ran warnings run passed hrun hpassed =>
      cases passed with
      | true => exact .inr (.inl (.inr (.inr ⟨warnings, run, hrun, hpassed⟩)))
      | false => exact .inr (.inr (.inl ⟨warnings, run, hrun, hpassed⟩))

/-- Files with a source file and a plugin, whose rule ends the program instead of giving an answer. -/
def endingHost : Host where
  files :=
    { current := ["w"]
      entries := [(["w", "p.py"], .file []), (["w", "a.sv"], .file [])] }
  environment := ⟨[]⟩
  plugins :=
    ⟨[(["w", "p.py"], .returns (.rule
      { Rule.base with
        name := .ok (.text "ends")
        check := fun _ _ => .error (.raise "SystemExit" []) } true))]⟩
  parser _ _ := .ok (.node ⟨.compilationUnit, .origin, []⟩ [], [])

example : (start endingHost ["-p", "p.py", "a.sv"]).exit.toOption = none ∧
    (start endingHost ["-p", "p.py", "a.sv"]).stdout = "" := by
  decide +kernel

end Program

end HdlLint
