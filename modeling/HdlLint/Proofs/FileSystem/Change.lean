import HdlLint.Proofs.FileSystem.Write

/-!
# Pictures that differ in one file

Two pictures agree at a path where the same stands at it, nothing does, or a look at it is refused in
the same way (`AgreeAt`). Pictures that differ in no more than one file (`SameBut`), as those in
front of a write and behind it do (`sameBut_write`), agree at all paths that name another place
(`SameBut.agreeAt`).
-/

namespace HdlLint.FileSystem

/-- Whether a look at a path shows the same in two pictures: the same entry, nothing in either, or the
same refusal. -/
structure AgreeAt (fs fs' : FileSystem) (path : Path) : Prop where
  entry : ∀ e, fs.lookup path = .ok e ↔ fs'.lookup path = .ok e
  refusal : ∀ r, fs.lookup path = .error (.refused r) ↔ fs'.lookup path = .error (.refused r)

/-- Whether two pictures differ in no more than one file: the one at a place, which may be missing in
either. -/
structure SameBut (fs fs' : FileSystem) (place : List String) : Prop where
  current : fs.current = fs'.current
  refusal?_eq : fs.refusal? = fs'.refusal?
  at?_eq : ∀ p, p ≠ place → fs.at? p = fs'.at? p
  no_directory : fs.at? place ≠ some .directory
  no_directory' : fs'.at? place ≠ some .directory

variable {fs fs' : FileSystem} {path : Path} {place : List String}

/-! ## Agreement at a path -/

/-- A look finds the same. -/
theorem AgreeAt.finds_eq (h : AgreeAt fs fs' path) (isWanted : Entry → Bool) :
    fs.finds isWanted path = fs'.finds isWanted path := by
  by_cases hentry : ∃ e, fs.lookup path = .ok e
  · obtain ⟨e, he⟩ := hentry
    rw [finds, finds, he, (h.entry e).mp he]
  · by_cases hrefused : ∃ r, fs.lookup path = .error (.refused r)
    · obtain ⟨r, hr⟩ := hrefused
      rw [finds, finds, hr, (h.refusal r).mp hr]
    · rw [finds_of_missing (fun e he => hentry ⟨e, he⟩) fun r hr => hrefused ⟨r, hr⟩,
        finds_of_missing (fun e he => hentry ⟨e, (h.entry e).mpr he⟩)
          fun r hr => hrefused ⟨r, (h.refusal r).mpr hr⟩]

theorem AgreeAt.exists?_eq (h : AgreeAt fs fs' path) : fs.exists? path = fs'.exists? path :=
  h.finds_eq _

theorem AgreeAt.lookup_eq (h : AgreeAt fs fs' path) (hpath : fs.exists? path = .ok true) :
    fs.lookup path = fs'.lookup path := by
  obtain ⟨e, he⟩ := exists?_eq_true_iff.mp hpath
  rw [he, (h.entry e).mp he]

theorem readText_congr (h : fs.lookup path = fs'.lookup path) :
    fs.readText path = fs'.readText path := by
  simp only [readText, read, h]

/-! ## One file -/

theorem SameBut.symm (h : SameBut fs fs' place) : SameBut fs' fs place :=
  ⟨h.current.symm, h.refusal?_eq.symm, fun p hp => (h.at?_eq p hp).symm, h.no_directory', h.no_directory⟩

theorem SameBut.at?_directory (h : SameBut fs fs' place) {p : List String}
    (hp : fs.at? p = some .directory) : fs'.at? p = some .directory := by
  rw [← h.at?_eq p fun he => h.no_directory (he ▸ hp), hp]

/-- No walk goes through a file, so paths lead to the same places. -/
theorem SameBut.place_ok (h : SameBut fs fs' place) {p : List String} (hp : fs.place path = .ok p) :
    fs'.place path = .ok p := by
  rw [place_eq_ok_iff] at hp ⊢
  obtain ⟨hnul, hshown, hfollow⟩ := hp
  rw [← h.refusal?_eq, ← h.current]
  exact ⟨hnul, hshown, follow_of_directories (fun _ => h.at?_directory) hfollow⟩

/-- The same looks are refused. -/
theorem SameBut.lookup_refused (h : SameBut fs fs' place) {refusal : Refusal} :
    fs.lookup path = .error (.refused refusal) ↔ fs'.lookup path = .error (.refused refusal) := by
  rw [lookup_eq_refused_iff, lookup_eq_refused_iff, place_eq_refused_iff, place_eq_refused_iff,
    h.refusal?_eq]

theorem SameBut.lookup_ok (h : SameBut fs fs' place) (hne : fs.place path ≠ .ok place) {e : Entry}
    (he : fs.lookup path = .ok e) : fs'.lookup path = .ok e := by
  obtain ⟨p, hp, hat⟩ := lookup_eq_ok_iff.mp he
  refine lookup_eq_ok_iff.mpr ⟨p, h.place_ok hp, ?_⟩
  rw [← h.at?_eq p fun hpe => hne (hpe ▸ hp), hat]

/-- At a path that names another place the same stands. -/
theorem SameBut.agreeAt (h : SameBut fs fs' place) (hne : fs.place path ≠ .ok place) :
    AgreeAt fs fs' path where
  entry _ := ⟨h.lookup_ok hne, h.symm.lookup_ok fun hp => hne (h.symm.place_ok hp)⟩
  refusal _ := h.lookup_refused

/-- A write changes one file. -/
theorem sameBut_write {bytes : List UInt8} (h : fs.write path bytes = .ok fs') :
    ∃ place, fs.place path = .ok place ∧ SameBut fs fs' place := by
  obtain ⟨place, hplace, hdirectory, habove, rfl⟩ := write_ok h
  refine ⟨place, hplace, rfl, rfl, fun p hp => ?_, hdirectory, ?_⟩
  · rw [at?_setEntry _ habove, if_neg hp.symm]
  · rw [at?_setEntry _ habove, if_pos rfl]
    nofun

/-! ## Plain paths -/

/-- A walk that never goes up ends below its start. -/
theorem follow_plain {start parts : List String} (hparts : ".." ∉ parts)
    (h : fs.follow start parts = .ok place) : place = start ++ parts := by
  induction parts generalizing start with
  | nil => rw [List.append_nil, Except.ok.inj h]
  | cons part parts ih =>
    rw [List.mem_cons, not_or] at hparts
    rw [follow] at h
    split at h
    · cases h
    · cases h
    · rw [if_neg (Ne.symm hparts.1)] at h
      rw [ih hparts.2 h, List.append_assoc, List.singleton_append]

/-- A path from the root that never goes up names the place that its parts spell. -/
theorem place_plain (habsolute : path.isAbsolute = true) (hparts : ".." ∉ path.parts)
    (h : fs.place path = .ok place) : place = path.parts := by
  obtain ⟨-, -, hfollow⟩ := place_eq_ok_iff.mp h
  rw [habsolute, if_pos rfl] at hfollow
  exact follow_plain hparts hfollow

end HdlLint.FileSystem
