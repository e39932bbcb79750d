import HdlLint.Proofs.FileSystem.Look
import HdlLint.Proofs.Text.Occurs

/-!
# Names with null characters

No name of a file can hold a null character. A path with one in it cannot be read or written, and no
other path fails for this cause (`read_eq_nul_iff`, `readText_eq_nul_iff`). A path holds one where its
text does (`Path.hasNul_ofString_iff`).
-/

namespace HdlLint

/-- Whether a part of a path holds a null character, which no name of a file can hold. -/
def Path.HasNul (p : Path) : Prop :=
  ∃ part ∈ p.parts, '\x00' ∈ part.toList

theorem Path.hasNul_ofString_iff {s : String} : (Path.ofString s).HasNul ↔ '\x00' ∈ s.toList := by
  rw [← Text.exists_mem_splitOn_iff (by decide : '\x00' ≠ '/'), Path.HasNul, Path.ofString]
  simp only [List.mem_map, List.mem_filter]
  constructor
  · rintro ⟨_, ⟨part, ⟨hpart, -⟩, rfl⟩, hnul⟩
    rw [String.toList_ofList] at hnul
    exact ⟨part, hpart, hnul⟩
  · rintro ⟨part, hpart, hnul⟩
    have hcounts : Path.isPart part = true := by
      rw [Path.isPart, Bool.and_eq_true, decide_eq_true_eq, decide_eq_true_eq]
      refine ⟨List.ne_nil_of_mem hnul, fun hpoint => ?_⟩
      rw [hpoint] at hnul
      exact absurd hnul (by decide)
    exact ⟨_, ⟨part, ⟨hpart, hcounts⟩, rfl⟩, by rwa [String.toList_ofList]⟩

namespace FileSystem

variable {fs : FileSystem} {path : Path}

theorem hasNul_of_place (h : fs.place path = .error .nulInName) : path.HasNul := by
  rw [place] at h
  split at h
  · next hany =>
    obtain ⟨part, hpart, hnul⟩ := List.any_eq_true.mp hany
    exact ⟨part, hpart, List.contains_iff_mem.mp hnul⟩
  · split at h
    · cases h
    · rcases follow_error_cases h with hfault | hfault <;> cases hfault

theorem place_of_read_nul (h : fs.read path = .error .nulInName) :
    fs.place path = .error .nulInName := by
  rw [read] at h
  split at h
  · cases h
  · cases h
  · next hlookup =>
    obtain rfl := Except.error.inj h
    rw [lookup] at hlookup
    split at hlookup
    · next hplace =>
      obtain rfl := Except.error.inj hlookup
      exact hplace
    · split at hlookup <;> cases hlookup

theorem read_eq_nul_iff : fs.read path = .error .nulInName ↔ path.HasNul := by
  refine ⟨fun h => hasNul_of_place (place_of_read_nul h), fun ⟨part, hpart, hnul⟩ => ?_⟩
  have hplace : fs.place path = .error .nulInName := by
    have hany : (path.parts.any fun part => part.toList.contains '\x00') = true :=
      List.any_eq_true.mpr ⟨part, hpart, List.contains_iff_mem.mpr hnul⟩
    rw [place, if_pos hany]
  simp only [read, lookup, hplace]

theorem readText_eq_nul_iff : fs.readText path = .error (.file .nulInName) ↔ path.HasNul := by
  rw [← @read_eq_nul_iff fs, readText]
  cases fs.read path with
  | error fault => simp
  | ok bytes =>
    simp only
    split <;> simp

theorem place_of_readText_nul (h : fs.readText path = .error (.file .nulInName)) :
    fs.place path = .error .nulInName :=
  place_of_read_nul (read_eq_nul_iff.mpr (readText_eq_nul_iff.mp h))

theorem place_of_write_nul {bytes : List UInt8} (h : fs.write path bytes = .error .nulInName) :
    fs.place path = .error .nulInName := by
  rw [write] at h
  split at h
  · next hplace =>
    obtain rfl := Except.error.inj h
    exact hplace
  · split at h
    · cases h
    · cases h
    · split at h <;> cases h

theorem place_ne_nul_of_exists (h : fs.exists? path = .ok true) :
    fs.place path ≠ .error .nulInName := by
  intro hplace
  obtain ⟨e, he⟩ := exists?_eq_true_iff.mp h
  rw [lookup, hplace] at he
  cases he

end FileSystem

end HdlLint
