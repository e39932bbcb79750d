import HdlLint.MacroUse
import HdlLint.Proofs.Text.Front

/-!
# The usage that a column points at

The usages that are found in a text are the backticks with a name behind them (`mem_scan_iff`), from
left to right (`pairwise_scan`). A column points at the last one that starts at or before it, else at
the first one (`Pointed`). As usages do not overlap (`StandsIn.end_le`), a column on a usage points
at that usage.

* `nameAt?_pointed`: the name that is found is that of the usage pointed at.
-/

namespace HdlLint.MacroUse

/-- Whether a usage stands in a text: there is a backtick, with a whole name behind it. -/
structure StandsIn (s : List Char) (u : MacroUse) : Prop where
  ne_nil : u.name ≠ []
  isWord : ∀ c ∈ u.name, Text.isWord c = true
  stands : ∃ before after, s = before ++ '\x60' :: (u.name ++ after) ∧ before.length = u.start ∧
    ∀ c ∈ after.head?, Text.isWord c = false

/-- The column of the backtick, counted from one. -/
def column (u : MacroUse) : Int :=
  u.start + 1

/-- Whether a column points at a usage: the last one that starts at or before it, or the first one
where none does. -/
structure Pointed (s : List Char) (column : Int) (u : MacroUse) : Prop where
  standsIn : StandsIn s u
  place : (u.column ≤ column ∧ ∀ v, StandsIn s v → v.column ≤ column → v.start ≤ u.start) ∨
    ∀ v, StandsIn s v → column < v.column ∧ u.start ≤ v.start

variable {s rest : List Char} {c : Char} {u v : MacroUse} {position : Nat}

/-! ## The usages of a text -/

/-- A usage stands at the front of a text or behind its first character. -/
theorem standsIn_cons_iff : StandsIn (c :: rest) u ↔
    (c = '\x60' ∧ u.start = 0 ∧ u.name = rest.takeWhile Text.isWord ∧ u.name ≠ []) ∨
      ∃ start, u.start = start + 1 ∧ StandsIn rest ⟨start, u.name⟩ := by
  constructor
  · rintro ⟨hne, hword, before, after, hs, hlength, hafter⟩
    cases before with
    | nil =>
      rw [List.nil_append, List.cons.injEq] at hs
      exact .inl ⟨hs.1, hlength.symm, by rw [hs.2, Text.takeWhile_append_of_head hword hafter], hne⟩
    | cons b before =>
      rw [List.cons_append, List.cons.injEq] at hs
      exact .inr ⟨before.length, hlength.symm, hne, hword, before, after, hs.2, rfl, hafter⟩
  · rintro (⟨rfl, hstart, hname, hne⟩ | ⟨start, hstart, hne, hword, before, after, rfl, hlength, hafter⟩)
    · refine ⟨hne, hname ▸ Text.mem_takeWhile, [], rest.dropWhile Text.isWord, ?_, hstart.symm,
        Text.head?_dropWhile Text.isWord rest⟩
      rw [hname, List.takeWhile_append_dropWhile, List.nil_append]
    · exact ⟨hne, hword, c :: before, after, rfl, hstart ▸ congrArg (· + 1) hlength, hafter⟩

theorem not_standsIn_nil : ¬StandsIn [] u := by
  rintro ⟨-, -, before, after, hs, -⟩
  exact List.append_ne_nil_of_right_ne_nil before (List.cons_ne_nil _ _) hs.symm

theorem standsFrom_cons_iff :
    (∃ start, u.start = position + start ∧ StandsIn (c :: rest) ⟨start, u.name⟩) ↔
      (c = '\x60' ∧ u = ⟨position, rest.takeWhile Text.isWord⟩ ∧ rest.takeWhile Text.isWord ≠ []) ∨
        ∃ start, u.start = position + 1 + start ∧ StandsIn rest ⟨start, u.name⟩ := by
  constructor
  · rintro ⟨start, hstart, h⟩
    rcases standsIn_cons_iff.mp h with ⟨hc, hzero, hname, hne⟩ | ⟨start', hsucc, hrest⟩
    · dsimp only at hzero hname hne
      refine .inl ⟨hc, ?_, hname ▸ hne⟩
      rw [← hname, ← Nat.add_zero position, ← hzero, ← hstart]
    · dsimp only at hsucc
      exact .inr ⟨start', by omega, hrest⟩
  · rintro (⟨hc, rfl, hne⟩ | ⟨start, hstart, hrest⟩)
    · exact ⟨0, rfl, standsIn_cons_iff.mpr (.inl ⟨hc, rfl, rfl, hne⟩)⟩
    · exact ⟨start + 1, by omega, standsIn_cons_iff.mpr (.inr ⟨start, rfl, hrest⟩)⟩

theorem mem_scanFrom_iff : u ∈ scanFrom position s ↔
    ∃ start, u.start = position + start ∧ StandsIn s ⟨start, u.name⟩ := by
  fun_induction scanFrom position s with
  | case1 position => exact ⟨nofun, fun ⟨_, _, h⟩ => absurd h not_standsIn_nil⟩
  | case2 position rest hname ih =>
    rw [ih, standsFrom_cons_iff, or_iff_right]
    exact fun h => h.2.2 hname
  | case3 position rest hne ih =>
    rw [List.mem_cons, ih, standsFrom_cons_iff]
    exact or_congr_left ⟨fun hu => ⟨rfl, hu, hne⟩, fun h => h.2.1⟩
  | case4 position c rest hc ih =>
    rw [ih, standsFrom_cons_iff, or_iff_right]
    exact fun h => hc h.1

/-- The usages that are found are those of the text. -/
theorem mem_scan_iff : u ∈ scan s ↔ StandsIn s u := by
  rw [scan, mem_scanFrom_iff]
  constructor
  · rintro ⟨start, hstart, h⟩
    rwa [← Nat.zero_add start, ← hstart] at h
  · exact fun h => ⟨u.start, (Nat.zero_add u.start).symm, h⟩

theorem pairwise_scanFrom (position : Nat) (s : List Char) :
    (scanFrom position s).Pairwise (·.start < ·.start) := by
  fun_induction scanFrom position s with
  | case1 => exact .nil
  | case2 position rest hname ih => exact ih
  | case3 position rest hne ih =>
    refine .cons (fun u hu => ?_) ih
    obtain ⟨start, hstart, -⟩ := mem_scanFrom_iff.mp hu
    dsimp only
    omega
  | case4 position c rest hc ih => exact ih

/-- They are found from left to right. -/
theorem pairwise_scan (s : List Char) : (scan s).Pairwise (·.start < ·.start) :=
  pairwise_scanFrom 0 s

/-! ## Places of usages -/

theorem StandsIn.getElem?_start (h : StandsIn s u) : s[u.start]? = some '\x60' := by
  obtain ⟨before, after, rfl, hlength, -⟩ := h.stands
  rw [← hlength, List.getElem?_append_right (Nat.le_refl _), Nat.sub_self]
  rfl

theorem StandsIn.getElem?_name (h : StandsIn s u) {i : Nat} (hi : i < u.name.length) :
    s[u.start + 1 + i]? = some u.name[i] := by
  obtain ⟨before, after, rfl, hlength, -⟩ := h.stands
  rw [← hlength, Nat.add_assoc, List.getElem?_append_right (Nat.le_add_right _ _),
    Nat.add_sub_cancel_left, Nat.add_comm 1 i, List.getElem?_cons_succ, List.getElem?_append_left hi,
    List.getElem?_eq_getElem hi]

/-- Usages do not overlap: no name holds a backtick. -/
theorem StandsIn.end_le (hu : StandsIn s u) (hv : StandsIn s v) (h : u.start < v.start) :
    u.start + 1 + u.name.length ≤ v.start := by
  refine Decidable.byContradiction fun hinside => ?_
  have hi : v.start - (u.start + 1) < u.name.length := by omega
  have hword := hu.isWord _ (List.getElem_mem hi)
  have hat := hu.getElem?_name hi
  rw [show u.start + 1 + (v.start - (u.start + 1)) = v.start by omega, hv.getElem?_start] at hat
  rw [← Option.some.inj hat, Text.isWord_backtick] at hword
  cases hword

theorem StandsIn.unique (hu : StandsIn s u) (hv : StandsIn s v) (h : u.start = v.start) : u = v := by
  obtain ⟨before, after, rfl, hlength, hafter⟩ := hu.stands
  obtain ⟨before', after', hs, hlength', hafter'⟩ := hv.stands
  obtain ⟨-, hrest⟩ := List.append_inj hs (by omega)
  have hname := Text.takeWhile_append_of_head hu.isWord hafter
  rw [(List.cons.inj hrest).2, Text.takeWhile_append_of_head hv.isWord hafter'] at hname
  cases u
  cases v
  rw [mk.injEq]
  exact ⟨h, hname.symm⟩

/-! ## The usage that is picked -/

/-- From a usage on, the last one that starts before the end of a column is picked. -/
theorem exists_pick (column : Int) {us : List MacroUse} (h : (u :: us).Pairwise (·.start < ·.start)) :
    ∃ w ∈ u :: us, pick column (some u.name) us = some w.name ∧ (w = u ∨ w.column ≤ column) ∧
      ∀ v ∈ us, v.column ≤ column → v.start ≤ w.start := by
  induction us generalizing u with
  | nil => exact ⟨u, List.mem_cons_self, rfl, .inl rfl, nofun⟩
  | cons v us ih =>
    rw [List.pairwise_cons] at h
    have hlater := (List.pairwise_cons.mp h.2).1
    rw [pick]
    by_cases hv : column ≤ v.start
    · refine ⟨u, List.mem_cons_self, if_pos hv, .inl rfl, fun v' hv' hcolumn => ?_⟩
      rw [MacroUse.column] at hcolumn
      rcases List.mem_cons.mp hv' with rfl | hv'
      · omega
      · have := hlater v' hv'
        omega
    · obtain ⟨w, hw, hpick, hplace, hlast⟩ := ih h.2
      rw [if_neg hv]
      have hstart : v.start ≤ w.start := by
        rcases List.mem_cons.mp hw with rfl | hw
        · exact Nat.le_refl _
        · exact Nat.le_of_lt (hlater w hw)
      refine ⟨w, List.mem_cons_of_mem u hw, hpick, .inr ?_, fun v' hv' hcolumn => ?_⟩
      · rcases hplace with rfl | hcolumn
        · rw [MacroUse.column]
          omega
        · exact hcolumn
      · rcases List.mem_cons.mp hv' with rfl | hv'
        · exact hstart
        · exact hlast v' hv' hcolumn

theorem Pointed.unique {column : Int} (hu : Pointed s column u) (hv : Pointed s column v) : u = v := by
  refine hu.standsIn.unique hv.standsIn ?_
  rcases hu.place with ⟨hcolumn, hlast⟩ | hfirst
  · rcases hv.place with ⟨hcolumn', hlast'⟩ | hfirst'
    · exact Nat.le_antisymm (hlast' u hu.standsIn hcolumn) (hlast v hv.standsIn hcolumn')
    · exact absurd hcolumn (Int.not_le.mpr (hfirst' u hu.standsIn).1)
  · rcases hv.place with ⟨hcolumn', hlast'⟩ | hfirst'
    · exact absurd hcolumn' (Int.not_le.mpr (hfirst v hv.standsIn).1)
    · exact Nat.le_antisymm (hfirst v hv.standsIn).2 (hfirst' u hu.standsIn).2

theorem scan_eq_nil_iff : scan s = [] ↔ ∀ u, ¬StandsIn s u := by
  rw [List.eq_nil_iff_forall_not_mem]
  exact forall_congr' fun u => not_congr mem_scan_iff

/-- A column of a text with usages points at one, and that is picked. -/
theorem exists_pointed (column : Int) (h : scan s ≠ []) :
    ∃ u, Pointed s column u ∧ pick column none (scan s) = some u.name := by
  obtain ⟨first, us, hscan⟩ := List.exists_cons_of_ne_nil h
  have hpairwise := pairwise_scan s
  have hmem : ∀ v, StandsIn s v ↔ v ∈ first :: us := fun v => by rw [← mem_scan_iff, hscan]
  rw [hscan] at hpairwise ⊢
  have hfirst : ∀ v ∈ first :: us, first.start ≤ v.start := fun v hv => by
    rcases List.mem_cons.mp hv with rfl | hv
    · exact Nat.le_refl _
    · exact Nat.le_of_lt ((List.pairwise_cons.mp hpairwise).1 v hv)
  obtain ⟨w, hw, hpick, hplace, hlast⟩ := exists_pick column hpairwise
  refine ⟨w, ⟨(hmem w).mpr hw, ?_⟩, hpick⟩
  by_cases hcolumn : w.column ≤ column
  · refine .inl ⟨hcolumn, fun v hv hle => ?_⟩
    rcases List.mem_cons.mp ((hmem v).mp hv) with rfl | hv
    · exact hfirst w hw
    · exact hlast v hv hle
  · obtain rfl := hplace.resolve_right hcolumn
    refine .inr fun v hv => ⟨?_, hfirst v ((hmem v).mp hv)⟩
    have := hfirst v ((hmem v).mp hv)
    rw [MacroUse.column] at hcolumn ⊢
    omega

theorem nameAt?_of_pointed {text : String} {column : Int} (h : Pointed text.toList column u) :
    nameAt? text column = some (String.ofList u.name) := by
  have hne : scan text.toList ≠ [] := fun hnil => scan_eq_nil_iff.mp hnil u h.standsIn
  obtain ⟨v, hv, hpick⟩ := exists_pointed column hne
  rw [nameAt?, hpick, hv.unique h, Option.map_some]

theorem nameAt?_eq_none_iff {text : String} {column : Int} :
    nameAt? text column = none ↔ scan text.toList = [] := by
  constructor
  · intro hnone
    refine Decidable.byContradiction fun hne => ?_
    obtain ⟨u, hu, -⟩ := exists_pointed column hne
    rw [nameAt?_of_pointed hu] at hnone
    cases hnone
  · intro hnil
    rw [nameAt?, hnil]
    rfl

/-- A usage stands where a character of a word follows a backtick. -/
theorem exists_standsIn_iff : (∃ u, StandsIn s u) ↔
    ∃ before c after, s = before ++ '\x60' :: c :: after ∧ Text.isWord c = true := by
  constructor
  · rintro ⟨u, hne, hword, before, after, hs, -⟩
    obtain ⟨c, name, hname⟩ := List.exists_cons_of_ne_nil hne
    exact ⟨before, c, name ++ after, by rw [hs, hname, List.cons_append],
      hword c (hname ▸ List.mem_cons_self)⟩
  · rintro ⟨before, c, after, hs, hc⟩
    have htake := List.takeWhile_cons_of_pos (l := after) hc
    refine ⟨⟨before.length, (c :: after).takeWhile Text.isWord⟩, ?_, Text.mem_takeWhile, before,
      (c :: after).dropWhile Text.isWord, ?_, rfl, Text.head?_dropWhile _ _⟩
    · rw [htake]
      exact List.cons_ne_nil _ _
    · rw [List.takeWhile_append_dropWhile, hs]

/-- On a usage, and just behind it unless another one starts there, a column points at it. -/
theorem StandsIn.pointed (hu : StandsIn s u) {column : Int} (hle : u.column ≤ column)
    (hend : column ≤ u.column + u.name.length + 1)
    (hnext : ∀ v, StandsIn s v → u.start < v.start → v.column ≠ column) : Pointed s column u := by
  refine ⟨hu, .inl ⟨hle, fun v hv hcolumn => Nat.not_lt.mp fun hlater => ?_⟩⟩
  have hbehind := hu.end_le hv hlater
  refine hnext v hv hlater ?_
  rw [MacroUse.column] at hcolumn hend ⊢
  omega

/-- No name is found exactly where no backtick has a character of a word behind it. Else it is that
of the last usage that starts at or before the column, or of the first one where none does. So a
column on a usage gives its name, and one just behind it unless another usage starts there. -/
theorem nameAt?_pointed (text : String) (column : Int) :
    (nameAt? text column = none ↔
      ¬∃ before c after, text.toList = before ++ '\x60' :: c :: after ∧ Text.isWord c = true) ∧
    (∀ name, nameAt? text column = some name ↔
      ∃ u, Pointed text.toList column u ∧ name = String.ofList u.name) ∧
    (∀ u, StandsIn text.toList u → u.column ≤ column → column ≤ u.column + u.name.length →
      nameAt? text column = some (String.ofList u.name)) ∧
    ∀ u, StandsIn text.toList u → column = u.column + u.name.length + 1 →
      (∀ v, StandsIn text.toList v → v.column ≠ column) →
      nameAt? text column = some (String.ofList u.name) := by
  refine ⟨?_, fun name => ⟨fun hname => ?_, ?_⟩, fun u hu hle hend => ?_, fun u hu hend hnext => ?_⟩
  · rw [← exists_standsIn_iff, not_exists, ← scan_eq_nil_iff, nameAt?_eq_none_iff]
  · have hne : scan text.toList ≠ [] := fun hnil => by
      rw [nameAt?_eq_none_iff.mpr hnil] at hname
      cases hname
    obtain ⟨u, hu, -⟩ := exists_pointed column hne
    rw [nameAt?_of_pointed hu] at hname
    exact ⟨u, hu, (Option.some.inj hname).symm⟩
  · rintro ⟨u, hu, rfl⟩
    exact nameAt?_of_pointed hu
  · refine nameAt?_of_pointed (hu.pointed hle (by omega) fun v hv hlater => ?_)
    have hbehind := hu.end_le hv hlater
    rw [MacroUse.column] at hend ⊢
    omega
  · exact nameAt?_of_pointed (hu.pointed (by omega) (by omega) fun v hv _ => hnext v hv)

/-- Behind a usage, where another one starts, and behind that one. -/
theorem nameAt?_pointed_sample :
    nameAt? "x `a`b y" 3 = some "a" ∧ nameAt? "x `a`b y" 5 = some "b" ∧
    nameAt? "x `a`b y" 7 = some "b" ∧ nameAt? "x `a`b y" 1 = some "a" := by
  have hscan : scan "x `a`b y".toList = [⟨2, ['a']⟩, ⟨4, ['b']⟩] := by decide +kernel
  have hmem : ∀ v, StandsIn "x `a`b y".toList v → v = ⟨2, ['a']⟩ ∨ v = ⟨4, ['b']⟩ := fun v hv => by
    have h := mem_scan_iff.mpr hv
    rw [hscan] at h
    simpa using h
  have ha : StandsIn "x `a`b y".toList ⟨2, ['a']⟩ := mem_scan_iff.mp (by decide +kernel)
  have hb : StandsIn "x `a`b y".toList ⟨4, ['b']⟩ := mem_scan_iff.mp (by decide +kernel)
  refine ⟨(nameAt?_pointed _ 3).2.2.1 _ ha (by decide) (by decide),
    (nameAt?_pointed _ 5).2.2.1 _ hb (by decide) (by decide), ?_, ?_⟩
  · refine (nameAt?_pointed _ 7).2.2.2 _ hb (by decide) fun v hv => ?_
    rcases hmem v hv with rfl | rfl <;> decide
  · refine ((nameAt?_pointed _ 1).2.1 _).mpr ⟨_, ⟨ha, .inr fun v hv => ?_⟩, rfl⟩
    rcases hmem v hv with rfl | rfl <;> decide

end HdlLint.MacroUse
