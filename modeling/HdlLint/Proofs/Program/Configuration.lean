import HdlLint.Program
import HdlLint.Proofs.Config.Nearest
import HdlLint.Verilog.Reader

/-!
# The configuration that decides

A program looks for its configuration in the current directory and in those above it, and uses the
nearest one (`Program.configuration`). Files of that name in other directories do not matter; where
there is none at all, it uses the configuration that enables all rules, behind a warning; and where
it may not look, it breaks off.

* `Program.execute_nearest`: the search, and what a program does behind it.
-/

namespace HdlLint

open CommandLine (Options)

namespace Outcome

/-- An outcome behind one more warning. -/
def warned (warning : String) (r : Outcome) : Outcome :=
  { r with stderr := warning ++ r.stderr }

variable {files : FileSystem} {stdout w w' : String}

theorem fatal_append (e : FatalError) :
    fatal files stdout (w ++ w') e = (fatal files stdout w' e).warned w := by
  rw [fatal, fatal]
  cases e.message? with
  | none => rfl
  | some message => simp only [warned, String.append_assoc]

theorem ofRun_append (v : Verbosity) (run : Run) :
    ofRun files v (w ++ w') run = (ofRun files v w' run).warned w := by
  rw [ofRun, ofRun]
  cases run.outcome with
  | error fault => simp only [String.append_assoc, fatal_append]
  | ok passed => simp only [warned, String.append_assoc]

end Outcome

namespace Program

variable {h h' : Host} {o : Options}

/-- Warnings stand in front of all else that is told about errors, and change nothing else. -/
theorem lint_append (h : Host) (o : Options) (w w' : String) (c : Config) :
    lint h o (w ++ w') c = (lint h o w' c).warned w := by
  rw [lint, lint]
  cases prepare h o c with
  | error e => exact Outcome.fatal_append e
  | ok run => exact Outcome.ofRun_append o.verbosity run

/-- The configuration that a program uses, and the warnings about it, if it can look for one. -/
def configuration (h : Host) (o : Options) : Except Refusal (String × Except Config.Fault Config) :=
  (Config.search? h.files o.config h.files.currentPath).map fun
    | none => (noConfigWarning o.config, .ok Config.default.enableAll)
    | some path => Config.load h.files path

/-- The outcome of a program that lints with what it found for a configuration. -/
def lintWith (h : Host) (o : Options) :
    Except Refusal (String × Except Config.Fault Config) → Outcome
  | .ok (warnings, .ok c) => lint h o warnings c
  | .ok (warnings, .error fault) => Outcome.fatal h.files "" warnings (.config fault)
  | .error refusal => Outcome.fatal h.files "" "" (.search refusal)

/-- The outcome of a program that writes back what it read from a configuration file. -/
def rewriteWith (h : Host) (path : Path) : String × Except Config.Fault Config → Outcome
  | (warnings, .ok c) =>
    match Config.store h.files path c with
    | .ok files => ⟨.ok 0, "", warnings, files⟩
    | .error fault => Outcome.fatal h.files "" warnings (.config fault)
  | (warnings, .error fault) => Outcome.fatal h.files "" warnings (.config fault)

theorem execute_eq_lintWith (hsample : o.sample = false) (hupdate : o.update = false) :
    execute h o = lintWith h o (configuration h o) := by
  rw [execute, configuration, hsample, if_neg Bool.false_ne_true]
  cases Config.search? h.files o.config h.files.currentPath with
  | error refusal => rfl
  | ok found =>
    cases found with
    | none => rfl
    | some path =>
      dsimp only [Except.map]
      obtain ⟨warnings, fault | c⟩ := Config.load h.files path
      · rfl
      · dsimp only
        rw [hupdate, if_neg Bool.false_ne_true, lintWith]

theorem execute_eq_rewriteWith (hsample : o.sample = false) (hupdate : o.update = true) {path : Path}
    (hs : Config.search? h.files o.config h.files.currentPath = .ok (some path)) :
    execute h o = rewriteWith h path (Config.load h.files path) := by
  rw [execute, hsample, if_neg Bool.false_ne_true, hs]
  dsimp only
  obtain ⟨warnings, fault | c⟩ := Config.load h.files path
  · rfl
  · dsimp only
    rw [hupdate, if_pos rfl]
    rfl

/-! ## A file that is found -/

/-- The place of the configuration file some directories above the current one. -/
abbrev configCandidate (h : Host) (o : Options) (k : Nat) : Path :=
  Config.candidate o.config h.files.currentPath k

/-- Whether the nearest configuration file is some directories above the current one. -/
abbrev ConfigNearest (h : Host) (o : Options) (k : Nat) : Prop :=
  Config.Nearest h.files o.config h.files.currentPath k

theorem configuration_of_nearest {k : Nat} (hk : ConfigNearest h o k) :
    configuration h o = .ok (Config.load h.files (configCandidate h o k)) := by
  rw [configuration, Config.search?_eq_some_iff.mpr ⟨k, hk, rfl⟩]
  rfl

/-- What stands at the places that are looked at decides. -/
theorem configuration_congr {k : Nat} (hk : ConfigNearest h o k)
    (hcurrent : h.files.current = h'.files.current)
    (hagree : ∀ j ≤ k, h.files.AgreeAt h'.files (configCandidate h o j)) :
    configuration h o = configuration h' o := by
  have hstart : h.files.currentPath = h'.files.currentPath := congrArg (Path.mk .slash) hcurrent
  have hk' : ConfigNearest h' o k := by
    rw [ConfigNearest, ← hstart]
    exact hk.agree hagree
  rw [configuration_of_nearest hk, configuration_of_nearest hk', configCandidate, configCandidate,
    ← hstart]
  exact congrArg Except.ok (Config.load_congr ((hagree k (Nat.le_refl k)).lookup_eq hk.exists?))

/-! ## No file -/

theorem entries_enableAll :
    Config.default.enableAll.rules.entries = BuiltInRule.names.map (·, true) := by
  decide +kernel

theorem execute_of_absent (hsample : o.sample = false)
    (habsent : Config.search? h.files o.config h.files.currentPath = .ok none) :
    execute h o = (lint h o "" Config.default.enableAll).warned (noConfigWarning o.config) := by
  rw [← lint_append, String.append_empty, execute, hsample, if_neg Bool.false_ne_true, habsent]

/-- The search gives the file in the nearest directory that has it, and nothing just if none has it; it
fails where the system does not let one look, in front of any directory that has it; a name that
starts at a root it looks for there. A program that is not asked for a sample lints with the file
that is found, or writes back what it read from it if it is to update it. It lints with the same
configuration on any host that has the same at the places up to that file, so on one that differs in
one file at another place: with a name that never goes up, in the file of that name in any other
directory. Where there is none, it lints, whether it is to update or not, as with the configuration
that enables the built-in rules and leaves nothing out, behind one warning. Where the search fails,
it breaks off and does nothing. -/
theorem execute_nearest (h : Host) (o : Options) (hsample : o.sample = false) :
    (∀ name start path, Config.search? h.files name start = .ok (some path) ↔
      ∃ k, Config.Nearest h.files name start k ∧ path = Config.candidate name start k) ∧
    (∀ name start, Config.search? h.files name start = .ok none ↔
      ∀ k ≤ start.parts.length, h.files.exists? (Config.candidate name start k) = .ok false) ∧
    (∀ name start refusal, Config.search? h.files name start = .error refusal ↔
      ∃ k, Config.EndsAt h.files name start k (.error refusal)) ∧
    (∀ name start, name.isAbsolute = true → Config.search? h.files name start =
      (h.files.exists? name).map fun found => if found then some name else none) ∧
    (o.update = false → execute h o = lintWith h o (configuration h o)) ∧
    (∀ k, ConfigNearest h o k →
      configuration h o = .ok (Config.load h.files (configCandidate h o k)) ∧
      (o.update = true → execute h o =
        rewriteWith h (configCandidate h o k) (Config.load h.files (configCandidate h o k))) ∧
      (∀ h' : Host, h.files.current = h'.files.current →
        (∀ j ≤ k, h.files.AgreeAt h'.files (configCandidate h o j)) →
        configuration h o = configuration h' o) ∧
      (∀ (h' : Host) (place : List String), h.files.SameBut h'.files place →
        (∀ j ≤ k, h.files.place (configCandidate h o j) ≠ .ok place) →
        configuration h o = configuration h' o) ∧
      (".." ∉ h.files.current → ".." ∉ o.config.parts → o.config.isAbsolute = false →
        ∀ (h' : Host) (directory : List String),
          (∀ j ≤ k, directory ≠ (h.files.currentPath.above j).parts) →
          h.files.SameBut h'.files (directory ++ o.config.parts) →
          configuration h o = configuration h' o)) ∧
    ((∀ k ≤ h.files.current.length, h.files.exists? (configCandidate h o k) = .ok false) →
      ∃ c, c.rules.entries = BuiltInRule.names.map (·, true) ∧ c.excludePaths = [] ∧
        configuration h o = .ok (noConfigWarning o.config, .ok c) ∧
        execute h o = (lint h o "" c).warned (noConfigWarning o.config)) ∧
    ∀ k refusal, Config.EndsAt h.files o.config h.files.currentPath k (.error refusal) →
      execute h o = ⟨.error (.search refusal), "", "", h.files⟩ := by
  have hother : ∀ k, ConfigNearest h o k → ∀ (h' : Host) (place : List String),
      h.files.SameBut h'.files place →
      (∀ j ≤ k, h.files.place (configCandidate h o j) ≠ .ok place) →
      configuration h o = configuration h' o := fun k hk h' place hsame hne =>
    configuration_congr hk hsame.current fun j hj => hsame.agreeAt (hne j hj)
  refine ⟨fun name start path => Config.search?_eq_some_iff,
    fun name start => Config.search?_eq_none_iff,
    fun name start refusal => Config.search?_eq_error_iff,
    fun name start => Config.search?_of_isAbsolute, execute_eq_lintWith hsample,
    fun k hk => ⟨configuration_of_nearest hk, fun hupdate => ?_, fun h' => configuration_congr hk,
      hother k hk, ?_⟩, fun hnone => ?_, fun k refusal hk => ?_⟩
  · exact execute_eq_rewriteWith hsample hupdate (Config.search?_eq_some_iff.mpr ⟨k, hk, rfl⟩)
  · intro hcurrent hup hname h' directory hdirectory hsame
    refine hother k hk h' _ hsame fun j hj => ?_
    exact Config.place_candidate_ne rfl hcurrent hname hup (hdirectory j hj)
  · have habsent : Config.search? h.files o.config h.files.currentPath = .ok none :=
      Config.search?_eq_none_iff.mpr hnone
    refine ⟨Config.default.enableAll, entries_enableAll, rfl, ?_, execute_of_absent hsample habsent⟩
    rw [configuration, habsent]
    rfl
  · rw [execute, hsample, if_neg Bool.false_ne_true, Config.search?_eq_error_iff.mpr ⟨k, hk⟩]
    rfl

/-- Files with a configuration file in the directory above the current one. -/
def upperFiles : FileSystem where
  current := ["w", "sub"]
  entries := [(["w", ".svlint.toml"], .file "[rules]\nif_with_begin = true\n".toUTF8.toList)]

/-- The same files, with another configuration file at the root. -/
def upperFilesAndRoot : FileSystem where
  current := ["w", "sub"]
  entries := [(["w", ".svlint.toml"], .file "[rules]\nif_with_begin = true\n".toUTF8.toList),
    ([".svlint.toml"], .file "[rules]\n".toUTF8.toList)]

/-- The file at the root does not matter; a name that is nowhere is warned about. -/
theorem execute_nearest_upper :
    let h : Host := ⟨upperFiles, ⟨[]⟩, ⟨[]⟩, Verilog.reader⟩
    let o : Options := {}
    ConfigNearest h o 1 ∧ configuration h o = configuration { h with files := upperFilesAndRoot } o ∧
    ∃ c, c.rules.entries = BuiltInRule.names.map (·, true) ∧
      execute h { config := ⟨.relative, ["x.toml"]⟩ } =
        (lint h { config := ⟨.relative, ["x.toml"]⟩ } "" c).warned
          "[svlint] Config file 'x.toml' is not found. Enable all rules\n" := by
  intro h o
  have hnearest : ConfigNearest h o 1 :=
    ⟨by decide, rfl, fun j hj => Nat.lt_one_iff.mp hj ▸ rfl⟩
  have habsent : ∀ k ≤ h.files.current.length,
      h.files.exists? (configCandidate h { config := ⟨.relative, ["x.toml"]⟩ } k) = .ok false := by
    intro k hk
    match k, hk with
    | 0, _ => rfl
    | 1, _ => rfl
    | 2, _ => rfl
  have hwrite : upperFiles.write ⟨.slash, [".svlint.toml"]⟩ "[rules]\n".toUTF8.toList =
      .ok upperFilesAndRoot := rfl
  obtain ⟨place, hplace, hsame⟩ := FileSystem.sameBut_write hwrite
  obtain rfl : place = [".svlint.toml"] := (Except.ok.inj hplace).symm
  obtain ⟨-, -, -, -, -, hfound, -⟩ := execute_nearest h o rfl
  obtain ⟨-, -, -, -, -, -, hmissing, -⟩ := execute_nearest h { config := ⟨.relative, ["x.toml"]⟩ } rfl
  obtain ⟨c, hrules, -, -, hexecute⟩ := hmissing habsent
  exact ⟨hnearest, (hfound 1 hnearest).2.2.2.2 (by decide) (by decide) rfl _ [] (by decide) hsame, c,
    hrules, hexecute⟩

end Program

end HdlLint
