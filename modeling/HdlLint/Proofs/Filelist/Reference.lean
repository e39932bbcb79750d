import HdlLint.Proofs.FileSystem.Write
import HdlLint.Proofs.Filelist.Merge
import Mathlib.Logic.Relation

/-!
# What a filelist refers to

A filelist refers to another one when one of its lines names it (`RefersTo`), and reaches what it
refers to through any number of filelists (`Reaches`). Unless it is endless, resolving a filelist
gives the same with more depth, and with other files where all that it reaches reads the same
(`resolve_eq_of_reads`). That is so where a file is written under a new name, if the filelist can be
resolved (`readText_write_of_reaches`).
-/

namespace HdlLint.Filelist

variable {fs fs' : FileSystem} {env : Environment}

/-- Whether a line of the first filelist names the second one. -/
def RefersTo (fs : FileSystem) (env : Environment) (p q : Path) : Prop :=
  ∃ text, fs.readText p = .ok text ∧ .nested q ∈ linesOf env text

/-- Whether the second filelist is met when the first one is resolved: it is referred to, directly
or through others. -/
def Reaches (fs : FileSystem) (env : Environment) : Path → Path → Prop :=
  Relation.TransGen (RefersTo fs env)

theorem addLine_congr {resolve resolve' : Path → Except FilelistFault Filelist}
    {line : FilelistLine}
    (h : ∀ q, line = .nested q → resolve q ≠ .error .endless → resolve' q = resolve q)
    (a : Filelist) (hne : addLine resolve a line ≠ .error .endless) :
    addLine resolve' a line = addLine resolve a line := by
  cases line with
  | nested q =>
    have hq : resolve q ≠ .error .endless := fun he => hne (by rw [addLine, he])
    rw [addLine, addLine, h q rfl hq]
  | _ => rfl

/-- What lines add does not depend on how filelists are resolved that they do not name, nor on how
the endless ones are, unless the lines are endless themselves. -/
theorem addLines_congr {resolve resolve' : Path → Except FilelistFault Filelist}
    {lines : List FilelistLine}
    (h : ∀ q, .nested q ∈ lines → resolve q ≠ .error .endless → resolve' q = resolve q)
    (a : Filelist) (hne : addLines resolve a lines ≠ .error .endless) :
    addLines resolve' a lines = addLines resolve a lines := by
  induction lines generalizing a with
  | nil => rfl
  | cons line lines ih =>
    have hline : addLine resolve a line ≠ .error .endless :=
      fun he => hne (by rw [addLines_cons, he]; rfl)
    have heq := addLine_congr (fun q hq => h q (hq ▸ List.mem_cons_self)) a hline
    rw [addLines_cons, addLines_cons, heq]
    cases hb : addLine resolve a line with
    | error fault => rfl
    | ok b =>
      rw [addLines_cons, hb] at hne
      exact ih (fun q hq => h q (List.mem_cons_of_mem line hq)) b hne

/-- A filelist that is not endless is resolved alike with more depth and with files that read the
same wherever it leads. -/
theorem resolve_eq_of_reads {depth depth' : Nat} (hd : depth ≤ depth') {p : Path}
    (hread : ∀ q, Relation.ReflTransGen (RefersTo fs env) p q → fs'.readText q = fs.readText q)
    (hne : resolve fs env depth p ≠ .error .endless) :
    resolve fs' env depth' p = resolve fs env depth p := by
  induction depth generalizing depth' p with
  | zero => exact absurd rfl hne
  | succ depth ih =>
    obtain ⟨depth', rfl⟩ : ∃ n, depth' = n + 1 := ⟨depth' - 1, by omega⟩
    rw [resolve] at hne
    rw [resolve, resolve, hread p .refl]
    cases hp : fs.readText p with
    | error fault => rfl
    | ok text =>
      simp only [hp] at hne ⊢
      refine addLines_congr (fun q hq hqne => ih (by omega) (fun r hr => ?_) hqne) empty hne
      exact hread r (.head ⟨text, hp, hq⟩ hr)

theorem resolve_eq_of_le {depth depth' : Nat} (hd : depth ≤ depth') {p : Path}
    (hne : resolve fs env depth p ≠ .error .endless) :
    resolve fs env depth' p = resolve fs env depth p :=
  resolve_eq_of_reads hd (fun _ _ => rfl) hne

theorem load_of_readText {p : Path} {text : List Char} (h : fs.readText p = .ok text) :
    load fs env p = addLines (resolve fs env fs.entries.length) empty (linesOf env text) := by
  rw [load, resolve]
  simp only [h]

/-! ## Filelists that can be resolved -/

theorem addLines_ok_nested {resolve : Path → Except FilelistFault Filelist} {a b : Filelist}
    {lines : List FilelistLine} (h : addLines resolve a lines = .ok b) {q : Path}
    (hq : .nested q ∈ lines) : ∃ inner, resolve q = .ok inner := by
  induction lines generalizing a with
  | nil => cases hq
  | cons line lines ih =>
    rw [addLines_cons] at h
    cases hl : addLine resolve a line with
    | error fault => rw [hl] at h; cases h
    | ok c =>
      rw [hl] at h
      rcases List.mem_cons.mp hq with rfl | hq
      · rw [addLine] at hl
        split at hl
        · exact ⟨_, ‹_›⟩
        · cases hl
      · exact ih h hq

theorem readText_of_resolve {depth : Nat} {p : Path} {list : Filelist}
    (h : resolve fs env (depth + 1) p = .ok list) :
    ∃ text, fs.readText p = .ok text ∧
      addLines (resolve fs env depth) empty (linesOf env text) = .ok list := by
  rw [resolve] at h
  cases hp : fs.readText p with
  | error fault => simp only [hp] at h; cases h
  | ok text => exact ⟨text, rfl, by simpa only [hp] using h⟩

/-- What a filelist reaches can be resolved with less depth than the filelist. -/
theorem resolve_of_reaches {depth : Nat} {p q : Path} {list : Filelist}
    (h : resolve fs env depth p = .ok list) (hq : Reaches fs env p q) :
    ∃ depth' < depth, ∃ inner, resolve fs env depth' q = .ok inner := by
  have hstep : ∀ {depth : Nat} {p q : Path} {list : Filelist},
      resolve fs env depth p = .ok list → RefersTo fs env p q →
        ∃ depth' < depth, ∃ inner, resolve fs env depth' q = .ok inner := by
    rintro depth p q list h ⟨text, htext, hmem⟩
    cases depth with
    | zero => cases h
    | succ depth =>
      obtain ⟨text', htext', hlines⟩ := readText_of_resolve h
      obtain rfl := Except.ok.inj (htext.symm.trans htext')
      exact ⟨depth, Nat.lt_succ_self depth, addLines_ok_nested hlines hmem⟩
  induction hq with
  | single hr => exact hstep h hr
  | tail _ hr ih =>
    obtain ⟨depth', hlt, inner, hinner⟩ := ih
    obtain ⟨depth'', hlt', hlast⟩ := hstep hinner hr
    exact ⟨depth'', Nat.lt_trans hlt' hlt, hlast⟩

/-- A filelist that can be resolved reaches only files that read the same after a file was written
where nothing stood. -/
theorem readText_write_of_reaches {p : Path} {list : Filelist} (h : load fs env p = .ok list)
    {name : Path} {bytes : List UInt8} (hname : fs.exists? name = .ok false)
    (hwrite : fs.write name bytes = .ok fs') {q : Path} (hq : Reaches fs env p q) :
    fs'.readText q = fs.readText q := by
  obtain ⟨depth, -, inner, hinner⟩ := resolve_of_reaches h hq
  cases depth with
  | zero => cases hinner
  | succ depth =>
    obtain ⟨text, htext, -⟩ := readText_of_resolve hinner
    have hne : fs.place q ≠ fs.place name := by
      intro he
      obtain ⟨bytes, -, hread, -⟩ := FileSystem.readText_eq_ok_iff.mp htext
      have hl := FileSystem.read_eq_ok_iff.mp hread
      rw [FileSystem.lookup, he, ← FileSystem.lookup] at hl
      rw [FileSystem.exists?_eq_true_iff.mpr ⟨_, hl⟩] at hname
      cases hname
    rw [htext, FileSystem.readText_write_of_place_ne hwrite hne htext]

end HdlLint.Filelist
