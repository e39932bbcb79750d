import HdlLint.Proofs.FileSystem.Write
import HdlLint.Proofs.Filelist.Noise
import Mathlib.Data.List.Forall2

/-!
# Files with noise

Two pictures of files may differ in the noise that their filelists hold (`NoisierFiles`), as those in
front of a write and behind it do if more noise was all that was written (`NoisierFiles.of_write`).
The same places are known in both (`NoisierFiles.at?_rel`), so names lead to the same places, and
each filelist is resolved to the same content or fails with the same fault (`load_noisier`).
-/

namespace HdlLint.Filelist

open FilelistLine (IsNoise expanded)

/-- The same, or a file whose text is noisier. A file that is not UTF-8 has no lines. -/
inductive NoisierEntry (env : Environment) : Entry → Entry → Prop
  | same (e : Entry) : NoisierEntry env e e
  | noisier {bytes bytes' : List UInt8} {text text' : List Char}
      (hdecode : Text.decode bytes = .ok text) (hdecode' : Text.decode bytes' = .ok text')
      (h : NoisierText env text text') : NoisierEntry env (.file bytes) (.file bytes')

/-- Whether files differ in noise only: any number of them may have a noisier text. -/
structure NoisierFiles (env : Environment) (fs fs' : FileSystem) : Prop where
  current : fs.current = fs'.current
  refusal?_eq : fs.refusal? = fs'.refusal?
  entries : List.Forall₂ (fun e e' => e.1 = e'.1 ∧ NoisierEntry env e.2 e'.2) fs.entries fs'.entries

variable {env : Environment} {fs fs' : FileSystem}

namespace NoisierFiles

/-! ## Places -/

theorem entryAt?_rel {es es' : List (List String × Entry)}
    (h : List.Forall₂ (fun e e' => e.1 = e'.1 ∧ NoisierEntry env e.2 e'.2) es es')
    (place : List String) :
    Option.Rel (NoisierEntry env) (FileSystem.entryAt? place es) (FileSystem.entryAt? place es') := by
  induction h with
  | nil => exact .none
  | cons he _ ih =>
    rw [FileSystem.entryAt?, FileSystem.entryAt?, ← he.1]
    split
    · exact .some he.2
    · exact ih

theorem any_eq {es es' : List (List String × Entry)}
    (h : List.Forall₂ (fun e e' => e.1 = e'.1 ∧ NoisierEntry env e.2 e'.2) es es')
    (p : List String → Bool) : (es.any fun e => p e.1) = es'.any fun e => p e.1 := by
  induction h with
  | nil => rfl
  | cons he _ ih => rw [List.any_cons, List.any_cons, he.1, ih]

theorem at?_rel (h : NoisierFiles env fs fs') (place : List String) :
    Option.Rel (NoisierEntry env) (fs.at? place) (fs'.at? place) := by
  have hentry := entryAt?_rel h.entries place
  rw [FileSystem.at?, FileSystem.at?, h.current, any_eq h.entries fun p => place.isPrefixOf p]
  revert hentry
  generalize FileSystem.entryAt? place fs.entries = e
  generalize FileSystem.entryAt? place fs'.entries = e'
  intro hentry
  cases hentry with
  | some he => exact .some he
  | none =>
    dsimp only
    split
    · exact .some (.same .directory)
    · exact .none

/-- The same stands at a place, or a file whose text is noisier. -/
theorem at?_cases (h : NoisierFiles env fs fs') (place : List String) :
    fs.at? place = fs'.at? place ∨ ∃ bytes bytes' text text',
      fs.at? place = some (.file bytes) ∧ fs'.at? place = some (.file bytes') ∧
      Text.decode bytes = .ok text ∧ Text.decode bytes' = .ok text' ∧ NoisierText env text text' := by
  have hat := h.at?_rel place
  revert hat
  generalize fs.at? place = e
  generalize fs'.at? place = e'
  intro hat
  cases hat with
  | none => exact .inl rfl
  | some he =>
    cases he with
    | same => exact .inl rfl
    | noisier hdecode hdecode' hnoise =>
      exact .inr ⟨_, _, _, _, rfl, rfl, hdecode, hdecode', hnoise⟩

/-- Paths lead to the same places. -/
theorem follow_eq (h : NoisierFiles env fs fs') (start parts : List String) :
    fs.follow start parts = fs'.follow start parts := by
  induction parts generalizing start with
  | nil => rfl
  | cons part parts ih =>
    rw [FileSystem.follow, FileSystem.follow]
    rcases h.at?_cases start with heq | ⟨bytes, bytes', _, _, hfile, hfile', -⟩
    · rw [heq, ih, ih]
    · rw [hfile, hfile']

/-! ## Texts -/

/-- A file reads the same, or its text is noisier. -/
theorem readText_cases (h : NoisierFiles env fs fs') (path : Path) :
    fs.readText path = fs'.readText path ∨
      ∃ text text', fs.readText path = .ok (FileSystem.newlines text) ∧
        fs'.readText path = .ok (FileSystem.newlines text') ∧ NoisierText env text text' := by
  have hplace : fs.place path = fs'.place path := by
    rw [FileSystem.place, FileSystem.place, h.current, h.refusal?_eq, h.follow_eq]
  simp only [FileSystem.readText, FileSystem.read, FileSystem.lookup, hplace]
  cases fs'.place path with
  | error fault => exact .inl rfl
  | ok place =>
    dsimp only
    rcases h.at?_cases place with heq | ⟨_, _, text, text', hfile, hfile', hdecode, hdecode', hnoise⟩
    · rw [heq]
      exact .inl rfl
    · refine .inr ⟨text, text', ?_, ?_, hnoise⟩
      · simp only [hfile, hdecode]
      · simp only [hfile', hdecode']

/-- At every depth a filelist is resolved alike. -/
theorem resolve_eq (h : NoisierFiles env fs fs') (depth : Nat) :
    resolve fs' env depth = resolve fs env depth := by
  induction depth with
  | zero => rfl
  | succ depth ih =>
    funext path
    rw [resolve, resolve, ih]
    rcases h.readText_cases path with hread | ⟨text, text', hread, hread', hnoise⟩
    · rw [hread]
    · rw [hread, hread']
      exact hnoise.addLines_eq (resolve fs env depth) empty

end NoisierFiles

/-! ## One file -/

theorem forall₂_setEntry {es : List (List String × Entry)} {place : List String} {old new : Entry}
    (hold : FileSystem.entryAt? place es = some old) (h : NoisierEntry env old new) :
    List.Forall₂ (fun e e' => e.1 = e'.1 ∧ NoisierEntry env e.2 e'.2) es
      (FileSystem.setEntry place new es) := by
  have hsame : ∀ es : List (List String × Entry),
      List.Forall₂ (fun e e' => e.1 = e'.1 ∧ NoisierEntry env e.2 e'.2) es es := fun es =>
    List.forall₂_same.mpr fun e _ => ⟨rfl, NoisierEntry.same e.2⟩
  induction es with
  | nil => cases hold
  | cons e es ih =>
    rw [FileSystem.entryAt?] at hold
    rw [FileSystem.setEntry]
    split at hold
    · next he =>
      rw [if_pos he]
      obtain rfl := Option.some.inj hold
      exact .cons ⟨he, h⟩ (hsame es)
    · next he =>
      rw [if_neg he]
      exact .cons ⟨rfl, .same e.2⟩ (ih hold)

/-- A file that is known as one has an entry. -/
theorem entryAt?_of_at? {place : List String} {bytes : List UInt8}
    (h : fs.at? place = some (.file bytes)) :
    FileSystem.entryAt? place fs.entries = some (.file bytes) := by
  rw [FileSystem.at?] at h
  split at h
  · next e he =>
    obtain rfl := Option.some.inj h
    exact he
  · split at h <;> cases h

/-- Writing a noisier text to a file gives files that differ in noise only. -/
theorem NoisierFiles.of_write {path : Path} {bytes : List UInt8} {text : List Char}
    {content : String} (hread : fs.read path = .ok bytes) (hdecode : Text.decode bytes = .ok text)
    (hnoise : NoisierText env text content.toList)
    (hwrite : fs.write path content.toUTF8.toList = .ok fs') : NoisierFiles env fs fs' := by
  obtain ⟨place, hplace, -, -, rfl⟩ := FileSystem.write_ok hwrite
  obtain ⟨place', hplace', hat⟩ :=
    FileSystem.lookup_eq_ok_iff.mp (FileSystem.read_eq_ok_iff.mp hread)
  obtain rfl := Except.ok.inj (hplace.symm.trans hplace')
  refine ⟨rfl, rfl, forall₂_setEntry (entryAt?_of_at? hat) ?_⟩
  exact .noisier hdecode (Text.decode_toUTF8 content) hnoise

/-- A filelist that names another one. -/
def plainFiles : FileSystem where
  current := ["w"]
  entries := [(["w", "top.f"], .file "-f in.f\na.sv\n".toUTF8.toList),
    (["w", "in.f"], .file "+incdir+x+y\n+define+A=1\n".toUTF8.toList)]

/-- Noise in filelists is inert: each filelist is resolved to the same files, include directories
and definitions, in the same order, or fails with the same fault. -/
theorem load_noisier (h : NoisierFiles env fs fs') (path : Path) :
    load fs' env path = load fs env path := by
  rw [load, load, h.resolve_eq, h.entries.length_eq]

/-- The nested filelist gets a comment, an empty segment, an option of another tool, and a form feed
behind a line, which ends a line as well. -/
theorem load_noisier_nested :
    ∃ files, plainFiles.write ⟨.relative, ["in.f"]⟩
        "// more\n+incdir+x++y\x0c\n-sv\n+define+A=1".toUTF8.toList = .ok files ∧
      NoisierFiles ⟨[]⟩ plainFiles files ∧
      load files ⟨[]⟩ ⟨.relative, ["top.f"]⟩ = load plainFiles ⟨[]⟩ ⟨.relative, ["top.f"]⟩ ∧
      (load files ⟨[]⟩ ⟨.relative, ["top.f"]⟩).toOption.map (·.includes) =
        some [⟨.relative, ["x"]⟩, ⟨.relative, ["y"]⟩] := by
  have hone : expanded ⟨[]⟩ "+incdir+x+y".toList =
      "+incdir+".toList ++ ['+'].intercalate ([['x']] ++ [['y']]) := by decide +kernel
  have htwo : expanded ⟨[]⟩ "+incdir+x++y".toList =
      "+incdir+".toList ++ ['+'].intercalate ([['x']] ++ [] :: [['y']]) := by decide +kernel
  have hoption : IsNoise ⟨[]⟩ "-sv".toList :=
    .option (.inr (by decide +kernel)) (by decide +kernel) (by decide +kernel) (by decide +kernel)
  have hlines : NoisierLines ⟨[]⟩ ["+incdir+x+y".toList, "+define+A=1".toList]
      ["// more".toList, "+incdir+x++y\x0c".toList, "-sv".toList, "+define+A=1".toList] := by
    refine .head (b := ["+incdir+x++y".toList, "+define+A=1".toList]) ?_
      (.head (b := ["+incdir+x++y\x0c".toList, "+define+A=1".toList]) ?_
        (.head (b := ["+incdir+x++y\x0c".toList, "-sv".toList, "+define+A=1".toList]) ?_ (.single ?_)))
    · exact .segment [] ["+define+A=1".toList] (by decide) (.inl rfl) hone htwo
    · exact .pad (x := []) (y := ['\x0c']) [] ["+define+A=1".toList] (List.forall_mem_nil _)
        (List.forall_mem_singleton.mpr rfl)
    · exact .insert ["+incdir+x++y\x0c".toList] _ (by decide) hoption
    · exact .insert [] _ (by decide) (.comment (by decide +kernel))
  have hwrite := FileSystem.write_of_isFile
    (show plainFiles.isFile ⟨.relative, ["in.f"]⟩ = .ok true from rfl)
    "// more\n+incdir+x++y\x0c\n-sv\n+define+A=1".toUTF8.toList
  obtain ⟨files, hfiles⟩ := hwrite
  have hnoisier : NoisierFiles ⟨[]⟩ plainFiles files :=
    .of_write rfl (Text.decode_toUTF8 "+incdir+x+y\n+define+A=1\n") ⟨_, hlines, by decide +kernel⟩ hfiles
  have hload := load_noisier hnoisier ⟨.relative, ["top.f"]⟩
  refine ⟨files, hfiles, hnoisier, hload, ?_⟩
  rw [hload]
  decide +kernel

end HdlLint.Filelist
