import HdlLint.Proofs.FileSystem.Look
import HdlLint.Proofs.Text.Lines
import HdlLint.Proofs.Text.Utf8

/-!
# Reading after writing

What `FileSystem.write` changes: the place that was written, and nothing that stands anywhere else
(`at?_write`). So the file reads as what was written (`read_write`, `readText_write`), and every
path that named another place still names it with what stands there (`lookup_write_of_place_ne`).
-/

namespace HdlLint.FileSystem

variable {fs fs' : FileSystem} {path : Path} {bytes : List UInt8}

/-! ## Entries -/

theorem entryAt?_setEntry (place p : List String) (e : Entry) (es : List (List String × Entry)) :
    entryAt? p (setEntry place e es) = if place = p then some e else entryAt? p es := by
  induction es with
  | nil => rfl
  | cons e' es ih =>
    by_cases he : e'.1 = place
    · subst he
      rw [setEntry, if_pos rfl, entryAt?, entryAt?]
      split <;> rfl
    · rw [setEntry, if_neg he, entryAt?, entryAt?, ih]
      by_cases hp : e'.1 = p
      · subst hp
        rw [if_pos rfl, if_neg (Ne.symm he), if_pos rfl]
      · rw [if_neg hp, if_neg hp]

theorem any_setEntry (q : List String → Bool) (place : List String) (e : Entry)
    (es : List (List String × Entry)) :
    ((setEntry place e es).any fun e => q e.1) = ((es.any fun e => q e.1) || q place) := by
  induction es with
  | nil => exact Bool.or_comm _ _
  | cons e' es ih =>
    by_cases he : e'.1 = place
    · rw [setEntry, if_pos he, List.any_cons, List.any_cons, he, Bool.or_right_comm, Bool.or_self]
    · rw [setEntry, if_neg he, List.any_cons, List.any_cons, ih, Bool.or_assoc]

theorem length_le_length_setEntry (place : List String) (e : Entry)
    (es : List (List String × Entry)) : es.length ≤ (setEntry place e es).length := by
  induction es with
  | nil => exact Nat.zero_le _
  | cons e' es ih =>
    rw [setEntry]
    split
    · exact Nat.le_refl _
    · exact Nat.succ_le_succ ih

theorem any_of_entryAt? {place : List String} {e : Entry} {es : List (List String × Entry)}
    (h : entryAt? place es = some e) (q : List String → Bool) (hq : q place = true) :
    (es.any fun e => q e.1) = true := by
  induction es with
  | nil => cases h
  | cons e' es ih =>
    rw [List.any_cons]
    by_cases he : e'.1 = place
    · rw [he, hq, Bool.true_or]
    · rw [entryAt?, if_neg he] at h
      rw [ih h, Bool.or_true]

/-! ## Places -/

/-- Whether a place is at or above one that is known. -/
def isAbove (fs : FileSystem) (place : List String) : Bool :=
  place.isPrefixOf fs.current || fs.entries.any fun e => place.isPrefixOf e.1

/-- Everything above a place where something stands is a directory, or has an entry. -/
theorem isAbove_of_at? {place p : List String} {e : Entry} (h : fs.at? place = some e)
    (hp : p <+: place) : fs.isAbove p = true := by
  rw [at?] at h
  split at h
  · rename_i e' he
    rw [isAbove, any_of_entryAt? he (p.isPrefixOf ·) (List.isPrefixOf_iff_prefix.mpr hp),
      Bool.or_true]
  · rw [Option.ite_none_right_eq_some, Bool.or_eq_true, List.any_eq_true] at h
    rw [isAbove, Bool.or_eq_true, List.any_eq_true]
    rcases h.1 with hc | ⟨e', he, hpre⟩
    · exact .inl (List.isPrefixOf_iff_prefix.mpr (hp.trans (List.isPrefixOf_iff_prefix.mp hc)))
    · exact .inr ⟨e', he,
        List.isPrefixOf_iff_prefix.mpr (hp.trans (List.isPrefixOf_iff_prefix.mp hpre))⟩

/-- What a successful write does: its place is no directory, all that is above it is known, and its
entry is set. -/
theorem write_ok (h : fs.write path bytes = .ok fs') :
    ∃ place, fs.place path = .ok place ∧ fs.at? place ≠ some .directory ∧
      (∀ p, p <+: place → p ≠ place → fs.isAbove p = true) ∧
      fs' = { fs with entries := setEntry place (.file bytes) fs.entries } := by
  rw [write] at h
  split at h
  · cases h
  · rename_i place hplace
    refine ⟨place, hplace, ?_⟩
    split at h
    · cases h
    · rename_i old hold
      exact ⟨by simp [hold], fun p hp _ => isAbove_of_at? hold hp, (Except.ok.inj h).symm⟩
    · rename_i hnone
      split at h
      · rename_i hdir
        refine ⟨by simp [hnone], fun p hp hne => isAbove_of_at? hdir ?_, (Except.ok.inj h).symm⟩
        have hlen := hp.length_le
        have hlt : p.length ≠ place.length := fun hl => hne (hp.eq_of_length hl)
        exact List.prefix_of_prefix_length_le hp (List.dropLast_prefix place)
          (by rw [List.length_dropLast]; omega)
      · cases h
      · cases h

/-- A write changes what stands at its place, and nothing else. -/
theorem at?_setEntry {place : List String} (e : Entry)
    (habove : ∀ p, p <+: place → p ≠ place → fs.isAbove p = true) (p : List String) :
    ({ fs with entries := setEntry place e fs.entries } : FileSystem).at? p =
      if place = p then some e else fs.at? p := by
  rw [at?, at?, entryAt?_setEntry]
  by_cases hp : place = p
  · rw [if_pos hp, if_pos hp]
  · rw [if_neg hp, if_neg hp, any_setEntry (p.isPrefixOf ·), ← Bool.or_assoc]
    cases hq : p.isPrefixOf place with
    | false => rw [Bool.or_false]
    | true =>
      have := habove p (List.isPrefixOf_iff_prefix.mp hq) (Ne.symm hp)
      rw [isAbove] at this
      rw [this, Bool.or_true]

/-! ## Paths -/

/-- Where all directories still stand, a path leads where it led before. -/
theorem follow_of_directories (h : ∀ p, fs.at? p = some .directory → fs'.at? p = some .directory)
    {start place : List String} {parts : List String} (hf : fs.follow start parts = .ok place) :
    fs'.follow start parts = .ok place := by
  induction parts generalizing start with
  | nil => exact hf
  | cons part parts ih =>
    rw [follow] at hf
    split at hf
    · cases hf
    · cases hf
    · rename_i hdir
      rw [follow, h start hdir]
      split at hf
      · rw [if_pos ‹_›, ih hf]
      · rw [if_neg ‹_›, ih hf]

theorem place_write (h : fs.write path bytes = .ok fs') {q : Path} {p : List String}
    (hq : fs.place q = .ok p) : fs'.place q = .ok p := by
  obtain ⟨place, -, hdir, habove, rfl⟩ := write_ok h
  rw [place_eq_ok_iff] at hq ⊢
  obtain ⟨hnul, hshown, hfollow⟩ := hq
  refine ⟨hnul, hshown, follow_of_directories (fun r hr => ?_) hfollow⟩
  rw [at?_setEntry _ habove, if_neg fun hp : place = r => hdir (hp ▸ hr)]
  exact hr

/-- A path that names another place than the one written still names it. -/
theorem lookup_write_of_place_ne (h : fs.write path bytes = .ok fs') {q : Path}
    (hne : fs.place q ≠ fs.place path) {e : Entry} (hq : fs.lookup q = .ok e) :
    fs'.lookup q = .ok e := by
  obtain ⟨p, hp, hat⟩ := lookup_eq_ok_iff.mp hq
  refine lookup_eq_ok_iff.mpr ⟨p, place_write h hp, ?_⟩
  obtain ⟨place, hplace, -, habove, rfl⟩ := write_ok h
  have hpne : place ≠ p := fun he => hne (by rw [hp, hplace, he])
  rw [at?_setEntry _ habove, if_neg hpne, hat]

/-! ## Contents -/

theorem read_eq_ok_iff {q : Path} : fs.read q = .ok bytes ↔ fs.lookup q = .ok (.file bytes) := by
  rw [read]
  constructor
  · intro h
    split at h
    · rename_i old hl
      rw [hl, Except.ok.inj h]
    · cases h
    · cases h
  · intro h
    rw [h]

theorem readText_eq_ok_iff {q : Path} {text : List Char} :
    fs.readText q = .ok text ↔
      ∃ bytes chars, fs.read q = .ok bytes ∧ Text.decode bytes = .ok chars ∧ newlines chars = text := by
  rw [readText]
  constructor
  · intro h
    split at h
    · cases h
    · rename_i bytes hb
      split at h
      · cases h
      · rename_i chars hc
        exact ⟨bytes, chars, hb, hc, Except.ok.inj h⟩
  · rintro ⟨bytes, chars, hb, hc, rfl⟩
    simp only [hb, hc]

theorem readText_write_of_place_ne (h : fs.write path bytes = .ok fs') {q : Path}
    (hne : fs.place q ≠ fs.place path) {text : List Char} (hq : fs.readText q = .ok text) :
    fs'.readText q = .ok text := by
  obtain ⟨old, chars, hb, hc, ht⟩ := readText_eq_ok_iff.mp hq
  have hl := lookup_write_of_place_ne h hne (read_eq_ok_iff.mp hb)
  exact readText_eq_ok_iff.mpr ⟨old, chars, read_eq_ok_iff.mpr hl, hc, ht⟩

theorem read_write (h : fs.write path bytes = .ok fs') : fs'.read path = .ok bytes := by
  obtain ⟨place, hplace, -, habove, hfs⟩ := write_ok h
  refine read_eq_ok_iff.mpr (lookup_eq_ok_iff.mpr ⟨place, place_write h hplace, ?_⟩)
  rw [hfs, at?_setEntry _ habove, if_pos rfl]

/-- A text is read as it was written, but for its line ends. -/
theorem readText_write {text : String} (h : fs.write path text.toUTF8.toList = .ok fs') :
    fs'.readText path = .ok (newlines text.toList) :=
  readText_eq_ok_iff.mpr ⟨_, _, read_write h, Text.decode_toUTF8 text, rfl⟩

/-- Where a file stands, a file can be written. -/
theorem write_of_isFile (h : fs.isFile path = .ok true) (bytes : List UInt8) :
    ∃ fs', fs.write path bytes = .ok fs' := by
  obtain ⟨old, hl⟩ := isFile_eq_true_iff.mp h
  obtain ⟨place, hplace, hat⟩ := lookup_eq_ok_iff.mp hl
  exact ⟨_, by simp only [write, hplace, hat]; rfl⟩

theorem setEntry_setEntry (place : List String) (e : Entry) (es : List (List String × Entry)) :
    setEntry place e (setEntry place e es) = setEntry place e es := by
  induction es with
  | nil => exact if_pos rfl
  | cons e' es ih =>
    by_cases he : e'.1 = place
    · rw [setEntry, if_pos he, setEntry, if_pos rfl]
    · rw [setEntry, if_neg he, setEntry, if_neg he, ih]

/-- Writing the same bytes once more changes nothing. -/
theorem write_write (h : fs.write path bytes = .ok fs') : fs'.write path bytes = .ok fs' := by
  obtain ⟨place, hplace, -, habove, hfs⟩ := write_ok h
  have hat : fs'.at? place = some (.file bytes) := by
    rw [hfs, at?_setEntry _ habove, if_pos rfl]
  simp only [write, place_write h hplace, hat]
  rw [hfs, setEntry_setEntry]

theorem length_entries_write (h : fs.write path bytes = .ok fs') :
    fs.entries.length ≤ fs'.entries.length := by
  obtain ⟨place, -, -, -, rfl⟩ := write_ok h
  exact length_le_length_setEntry ..

end HdlLint.FileSystem
