import HdlLint.Config.File
import HdlLint.Config.Search
import HdlLint.Proofs.FileSystem.Change

/-!
# The nearest configuration file

The directories above a path are one step apart, up to the root (`Path.cons_parents`). The search
for a configuration file finds it in the nearest of them that has one
(`Config.search?_eq_some_iff`), or fails at the first one that may not be looked at
(`Config.search?_eq_error_iff`). It looks no further: what stands elsewhere does not matter
(`Config.EndsAt.agree`).
-/

namespace HdlLint

namespace Path

/-- The directory that a path lies in; the root lies in itself. -/
def parent (p : Path) : Path :=
  ⟨p.root, p.parts.dropLast⟩

/-- The directory some steps above a path. -/
def above (p : Path) : Nat → Path
  | 0 => p
  | k + 1 => (p.above k).parent

theorem above_eq (p : Path) (k : Nat) : p.above k = ⟨p.root, p.parts.take (p.parts.length - k)⟩ := by
  induction k with
  | zero => rw [above, Nat.sub_zero, List.take_length]
  | succ k ih =>
    rw [above, ih, parent, List.dropLast_eq_take, List.take_take, List.length_take, mk.injEq]
    refine ⟨rfl, congrArg (p.parts.take ·) ?_⟩
    omega

theorem ancestors_eq (parts : List String) : ancestors parts =
    (List.range parts.length).map fun k => parts.take (parts.length - (k + 1)) := by
  induction parts with
  | nil => rfl
  | cons part parts ih =>
    rw [ancestors, ih, List.length_cons, List.range_succ, List.map_append, List.map_map]
    congr 1
    · refine List.map_congr_left fun k hk => ?_
      rw [show parts.length + 1 - (k + 1) = parts.length - (k + 1) + 1 by
        have := List.mem_range.mp hk
        omega, List.take_succ_cons]
      rfl
    · simp

/-- A path and the directories above it, one step apart. -/
theorem cons_parents (p : Path) :
    p :: p.parents = (List.range (p.parts.length + 1)).map p.above := by
  rw [List.range_succ_eq_map, List.map_cons, List.map_map, parents, ancestors_eq, List.map_map]
  refine congrArg (p :: ·) (List.map_congr_left fun k _ => ?_)
  exact (above_eq p (k + 1)).symm

end Path

namespace Config

/-- The place of a name some directories up. -/
def candidate (name start : Path) (k : Nat) : Path :=
  (start.above k).join name

/-- Whether a search for a name ends some directories up, with what a look shows there: in none of the
directories before does the name exist. -/
structure EndsAt (fs : FileSystem) (name start : Path) (k : Nat) (seen : Except Refusal Bool) :
    Prop where
  le : k ≤ start.parts.length
  exists? : fs.exists? (candidate name start k) = seen
  absent : ∀ j < k, fs.exists? (candidate name start j) = .ok false

/-- Whether a name exists some directories up, and in none of the directories before. -/
abbrev Nearest (fs : FileSystem) (name start : Path) (k : Nat) : Prop :=
  EndsAt fs name start k (.ok true)

variable {fs fs' : FileSystem} {name start path : Path} {k : Nat} {refusal : Refusal}

/-! ## What is found -/

theorem candidates_eq (name start : Path) :
    candidates name start = (List.range (start.parts.length + 1)).map (candidate name start) := by
  rw [candidates, Path.cons_parents, List.map_map]
  rfl

/-- Whether a search goes on behind a path. -/
def goesOn (fs : FileSystem) (path : Path) : Bool :=
  match fs.exists? path with
  | .ok false => true
  | _ => false

theorem goesOn_iff : goesOn fs path = true ↔ fs.exists? path = .ok false := by
  rw [goesOn]
  split
  · simp [*]
  · next h => exact ⟨nofun, fun he => absurd he h⟩

/-- The answer of a search is that of a look at the first path behind which it does not go on. -/
theorem firstExisting_eq (paths : List Path) : firstExisting fs paths =
    match paths.find? fun p => !goesOn fs p with
    | none => .ok none
    | some p => (fs.exists? p).map fun _ => some p := by
  induction paths with
  | nil => rfl
  | cons p paths ih =>
    rw [firstExisting, List.find?_cons, goesOn]
    cases hp : fs.exists? p with
    | error refusal => simp [hp, Except.map]
    | ok found =>
      cases found with
      | true => simp [hp, Except.map]
      | false => exact ih

theorem endsAt_iff {seen : Except Refusal Bool} (hseen : seen ≠ .ok false) :
    EndsAt fs name start k seen ↔ fs.exists? (candidate name start k) = seen ∧
      (List.range (start.parts.length + 1)).find? (fun k => !goesOn fs (candidate name start k)) =
        some k := by
  simp only [List.find?_range_eq_some, List.mem_range, Nat.lt_succ_iff, Bool.not_not]
  constructor
  · rintro ⟨hle, hexists, habsent⟩
    refine ⟨hexists, ?_, hle, fun j hj => goesOn_iff.mpr (habsent j hj)⟩
    rw [Bool.not_eq_true', Bool.eq_false_iff, Ne, goesOn_iff, hexists]
    exact hseen
  · rintro ⟨hexists, -, hle, habsent⟩
    exact ⟨hle, hexists, fun j hj => goesOn_iff.mp (habsent j hj)⟩

theorem search?_eq (fs : FileSystem) (name start : Path) : search? fs name start =
    match (List.range (start.parts.length + 1)).find? fun k => !goesOn fs (candidate name start k) with
    | none => .ok none
    | some k => (fs.exists? (candidate name start k)).map fun _ => some (candidate name start k) := by
  rw [search?, candidates_eq, firstExisting_eq, List.find?_map]
  cases hk : List.find? ((fun p => !goesOn fs p) ∘ candidate name start)
      (List.range (start.parts.length + 1)) <;>
    simp only [Function.comp_def] at hk <;> rw [hk] <;> rfl

theorem EndsAt.search?_eq {seen : Except Refusal Bool} (h : EndsAt fs name start k seen)
    (hseen : seen ≠ .ok false) :
    search? fs name start = seen.map fun _ => some (candidate name start k) := by
  obtain ⟨hexists, hfind⟩ := (endsAt_iff hseen).mp h
  simp only [Config.search?_eq, hfind, hexists]

theorem search?_of_absent
    (h : ∀ k ≤ start.parts.length, fs.exists? (candidate name start k) = .ok false) :
    search? fs name start = .ok none := by
  have hfind : (List.range (start.parts.length + 1)).find?
      (fun k => !goesOn fs (candidate name start k)) = none := by
    rw [List.find?_range_eq_none]
    intro k hk
    rw [Bool.not_not, goesOn_iff]
    exact h k (Nat.lt_succ_iff.mp hk)
  rw [Config.search?_eq, hfind]

/-- A search ends where something stands, where one may not look, or behind the root. -/
theorem search_ends (fs : FileSystem) (name start : Path) :
    (∃ k, Nearest fs name start k) ∨ (∃ k refusal, EndsAt fs name start k (.error refusal)) ∨
      ∀ k ≤ start.parts.length, fs.exists? (candidate name start k) = .ok false := by
  cases hfind : (List.range (start.parts.length + 1)).find?
      fun k => !goesOn fs (candidate name start k) with
  | none =>
    rw [List.find?_range_eq_none] at hfind
    refine .inr (.inr fun k hk => goesOn_iff.mp ?_)
    have hk' := hfind k (Nat.lt_succ_iff.mpr hk)
    rwa [Bool.not_not] at hk'
  | some k =>
    cases hk : fs.exists? (candidate name start k) with
    | error refusal => exact .inr (.inl ⟨k, refusal, (endsAt_iff (by simp)).mpr ⟨hk, hfind⟩⟩)
    | ok found =>
      cases found with
      | true => exact .inl ⟨k, (endsAt_iff (by simp)).mpr ⟨hk, hfind⟩⟩
      | false =>
        have hstops := List.find?_some hfind
        rw [goesOn_iff.mpr hk] at hstops
        cases hstops

/-- The search finds the nearest file. -/
theorem search?_eq_some_iff : search? fs name start = .ok (some path) ↔
    ∃ k, Nearest fs name start k ∧ path = candidate name start k := by
  constructor
  · intro h
    rcases search_ends fs name start with ⟨k, hk⟩ | ⟨k, refusal, hk⟩ | hnone
    · rw [hk.search?_eq nofun] at h
      exact ⟨k, hk, (Option.some.inj (Except.ok.inj h)).symm⟩
    · rw [hk.search?_eq nofun] at h
      cases h
    · rw [search?_of_absent hnone] at h
      cases h
  · rintro ⟨k, hk, rfl⟩
    exact hk.search?_eq nofun

/-- It finds nothing where the name is in no directory. -/
theorem search?_eq_none_iff : search? fs name start = .ok none ↔
    ∀ k ≤ start.parts.length, fs.exists? (candidate name start k) = .ok false := by
  refine ⟨fun h => ?_, search?_of_absent⟩
  rcases search_ends fs name start with ⟨k, hk⟩ | ⟨k, refusal, hk⟩ | hnone
  · rw [hk.search?_eq nofun] at h
    cases h
  · rw [hk.search?_eq nofun] at h
    cases h
  · exact hnone

/-- It fails where the system does not let one look, in front of any directory that has the name. -/
theorem search?_eq_error_iff : search? fs name start = .error refusal ↔
    ∃ k, EndsAt fs name start k (.error refusal) := by
  constructor
  · intro h
    rcases search_ends fs name start with ⟨k, hk⟩ | ⟨k, refusal', hk⟩ | hnone
    · rw [hk.search?_eq nofun] at h
      cases h
    · rw [hk.search?_eq nofun] at h
      exact ⟨k, Except.error.inj h ▸ hk⟩
    · rw [search?_of_absent hnone] at h
      cases h
  · rintro ⟨k, hk⟩
    exact hk.search?_eq nofun

/-- A name that starts at a root is looked for there. -/
theorem search?_of_isAbsolute (h : name.isAbsolute = true) : search? fs name start =
    (fs.exists? name).map fun found => if found then some name else none := by
  have hcandidate : ∀ k, candidate name start k = name := fun k => if_pos h
  have hends : ∀ {seen}, fs.exists? name = seen → EndsAt fs name start 0 seen := fun hseen =>
    ⟨Nat.zero_le _, by rw [hcandidate, hseen], nofun⟩
  cases hname : fs.exists? name with
  | error refusal => exact (hends hname).search?_eq nofun
  | ok found =>
    cases found with
    | true =>
      rw [(hends hname).search?_eq nofun, hcandidate]
      rfl
    | false => exact search?_of_absent fun k _ => by rw [hcandidate, hname]

/-! ## What does not matter -/

/-- The search depends on nothing but the directories up to the one where it ends. -/
theorem EndsAt.agree {seen : Except Refusal Bool} (h : EndsAt fs name start k seen)
    (hagree : ∀ j ≤ k, fs.AgreeAt fs' (candidate name start j)) : EndsAt fs' name start k seen :=
  ⟨h.le, (hagree k (Nat.le_refl k)).exists?_eq ▸ h.exists?,
    fun j hj => (hagree j (Nat.le_of_lt hj)).exists?_eq ▸ h.absent j hj⟩

theorem load_congr (h : fs.lookup path = fs'.lookup path) : load fs path = load fs' path := by
  rw [load, load, FileSystem.readText_congr h]

/-- Below directories without steps up, a name without steps up is at another place in each one. -/
theorem place_candidate_ne (hstart : start.isAbsolute = true) (hup : ".." ∉ start.parts)
    (hname : name.isAbsolute = false) (hnameUp : ".." ∉ name.parts) {directory : List String}
    (hother : directory ≠ (start.above k).parts) :
    fs.place (candidate name start k) ≠ .ok (directory ++ name.parts) := by
  have hcandidate : candidate name start k = ⟨start.root, (start.above k).parts ++ name.parts⟩ := by
    rw [candidate, Path.join, hname, if_neg Bool.false_ne_true, Path.above_eq]
  have hparts : ".." ∉ (candidate name start k).parts := by
    rw [hcandidate, Path.above_eq, List.mem_append, not_or]
    exact ⟨fun h => hup (List.mem_of_mem_take h), hnameUp⟩
  have habsolute : (candidate name start k).isAbsolute = true := by
    rw [hcandidate]
    exact hstart
  intro hplace
  have hspelled := FileSystem.place_plain habsolute hparts hplace
  rw [hcandidate] at hspelled
  exact hother (List.append_cancel_right hspelled)

end Config

end HdlLint
