import HdlLint.FileSystem

/-!
# Looking at a path

A path leads to a place where no null character spoils it, the system does not refuse to show it, and
the walk along its parts ends (`place_eq_ok_iff`). The system refuses a look for the path as a whole,
the walk never does (`place_eq_refused_iff`). What a look finds is what stands at the place
(`finds_eq_true_iff`).
-/

namespace HdlLint.FileSystem

variable {fs : FileSystem} {path : Path} {refusal : Refusal}

/-! ## Walking along a path -/

/-- A walk fails where something is missing or is no directory, and for no other cause. -/
theorem follow_error_cases {start parts : List String} {fault : FileFault}
    (h : fs.follow start parts = .error fault) : fault = .notFound ∨ fault = .notDirectory := by
  induction parts generalizing start with
  | nil => cases h
  | cons part parts ih =>
    rw [follow] at h
    split at h
    · exact .inl (Except.error.inj h).symm
    · exact .inr (Except.error.inj h).symm
    · split at h
      · exact ih h
      · exact ih h

/-- A path leads somewhere where no null character spoils it, the system shows what is there, and the
walk along its parts ends. -/
theorem place_eq_ok_iff {place : List String} : fs.place path = .ok place ↔
    (path.parts.any fun part => part.toList.contains '\x00') = false ∧ fs.refusal? path = none ∧
      fs.follow (if path.isAbsolute then [] else fs.current) path.parts = .ok place := by
  rw [FileSystem.place]
  cases path.parts.any fun part => part.toList.contains '\x00' with
  | true => simp
  | false => cases fs.refusal? path <;> simp

/-- The system refuses a look for the path as a whole. -/
theorem place_eq_refused_iff : fs.place path = .error (.refused refusal) ↔
    (path.parts.any fun part => part.toList.contains '\x00') = false ∧
      fs.refusal? path = some refusal := by
  rw [FileSystem.place]
  cases path.parts.any fun part => part.toList.contains '\x00' with
  | true => simp
  | false =>
    cases fs.refusal? path with
    | some found => simp
    | none =>
      simp only [Bool.false_eq_true, if_false, reduceCtorEq, and_false, iff_false]
      intro h
      rcases follow_error_cases h with hfault | hfault <;> cases hfault

theorem lookup_eq_ok_iff {e : Entry} :
    fs.lookup path = .ok e ↔ ∃ place, fs.place path = .ok place ∧ fs.at? place = some e := by
  rw [lookup]
  cases fs.place path with
  | error fault => simp
  | ok place => cases hat : fs.at? place <;> simp [hat]

theorem lookup_eq_refused_iff :
    fs.lookup path = .error (.refused refusal) ↔ fs.place path = .error (.refused refusal) := by
  rw [lookup]
  cases fs.place path with
  | error fault => simp
  | ok place => cases hat : fs.at? place <;> simp [hat]

/-! ## What a look shows -/

theorem finds_eq_true_iff {isWanted : Entry → Bool} :
    fs.finds isWanted path = .ok true ↔ ∃ e, fs.lookup path = .ok e ∧ isWanted e = true := by
  rw [finds]
  cases fs.lookup path with
  | ok e => simp
  | error fault =>
    cases fault with
    | refused refusal => cases h : refusal.isAbsence <;> simp [h]
    | _ => simp

/-- Where nothing stands and nothing is refused, a look finds nothing. -/
theorem finds_of_missing {isWanted : Entry → Bool} (hentry : ∀ e, fs.lookup path ≠ .ok e)
    (hshown : ∀ r, fs.lookup path ≠ .error (.refused r)) : fs.finds isWanted path = .ok false := by
  rw [finds]
  split
  · next e he => exact absurd he (hentry e)
  · next r hr => exact absurd hr (hshown r)
  · rfl

theorem exists?_eq_true_iff : fs.exists? path = .ok true ↔ ∃ e, fs.lookup path = .ok e := by
  rw [exists?, finds_eq_true_iff]
  simp

theorem isFile_eq_true_iff :
    fs.isFile path = .ok true ↔ ∃ bytes, fs.lookup path = .ok (.file bytes) := by
  rw [isFile, finds_eq_true_iff]
  constructor
  · rintro ⟨e, he, hfile⟩
    cases e with
    | file bytes => exact ⟨bytes, he⟩
    | directory => cases hfile
  · rintro ⟨bytes, hbytes⟩
    exact ⟨_, hbytes, rfl⟩

end HdlLint.FileSystem
