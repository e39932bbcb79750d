import HdlLint.Proofs.Filelist.Reference
import Mathlib.Data.List.Chain
import Mathlib.Data.List.Perm.Subperm

/-!
# Chains of filelists

Filelists that cannot be resolved down to some depth start a chain of as many references
(`exists_chain`). A chain that meets no filelist twice is no longer than the number of files
(`length_le_of_isChain`), so only filelists that lead to one that reaches itself are endless
(`load_ne_endless`), and what can be resolved can be resolved one level less deep than
`Filelist.load` allows (`resolve_of_load`).
-/

namespace HdlLint

namespace FileSystem

variable {fs : FileSystem} {p q : Path}

theorem readText_of_place_eq (h : fs.place p = fs.place q) : fs.readText p = fs.readText q := by
  simp only [readText, read, lookup, h]

theorem mem_of_entryAt? {place : List String} {e : Entry} {es : List (List String × Entry)}
    (h : entryAt? place es = some e) : (place, e) ∈ es := by
  induction es with
  | nil => cases h
  | cons e' es ih =>
    rw [entryAt?] at h
    split at h
    · next he =>
      obtain rfl := Option.some.inj h
      exact he ▸ List.mem_cons_self
    · exact List.mem_cons_of_mem _ (ih h)

/-- A path that can be read names an entry. -/
theorem exists_entry_of_read {bytes : List UInt8} (h : fs.read p = .ok bytes) :
    ∃ place, fs.place p = .ok place ∧ (place, .file bytes) ∈ fs.entries := by
  have hlookup := read_eq_ok_iff.mp h
  rw [lookup] at hlookup
  split at hlookup
  · cases hlookup
  · next place hplace =>
    refine ⟨place, hplace, ?_⟩
    split at hlookup
    · next e he =>
      obtain rfl := Except.ok.inj hlookup
      rw [at?] at he
      split at he
      · next e' he' =>
        obtain rfl := Option.some.inj he
        exact mem_of_entryAt? he'
      · split at he <;> cases he
    · cases hlookup

theorem place_of_readText {text : List Char} (h : fs.readText p = .ok text) :
    fs.place p ∈ fs.entries.map (.ok ∘ Prod.fst) := by
  obtain ⟨bytes, -, hread, -⟩ := readText_eq_ok_iff.mp h
  obtain ⟨place, hplace, hmem⟩ := exists_entry_of_read hread
  rw [hplace]
  exact List.mem_map_of_mem (f := Except.ok ∘ Prod.fst) hmem

end FileSystem

namespace Filelist

variable {fs : FileSystem} {env : Environment}

/-! ## Filelists that reach themselves -/

/-- Two names of one file refer to the same filelists. -/
theorem Reaches.of_place_eq {p q r : Path} (hplace : fs.place p = fs.place q)
    (h : Reaches fs env p r) : Reaches fs env q r := by
  obtain ⟨s, ⟨text, htext, hmem⟩, hs⟩ := Relation.TransGen.head'_iff.mp h
  exact .head' ⟨text, FileSystem.readText_of_place_eq hplace ▸ htext, hmem⟩ hs

/-- A filelist that can be resolved does not reach itself: it would be resolved with less and less
depth. -/
theorem not_reaches_self {depth : Nat} {p : Path} {list : Filelist}
    (h : resolve fs env depth p = .ok list) : ¬ Reaches fs env p p := by
  intro hp
  induction depth using Nat.strong_induction_on generalizing list with
  | _ depth ih =>
    obtain ⟨depth', hlt, inner, hinner⟩ := resolve_of_reaches h hp
    exact ih depth' hlt hinner

/-! ## Chains -/

/-- What lines add is endless where a filelist that they name is. -/
theorem exists_nested_of_endless {resolve : Path → Except FilelistFault Filelist} {a : Filelist}
    {lines : List FilelistLine} (h : addLines resolve a lines = .error .endless) :
    ∃ q, .nested q ∈ lines ∧ resolve q = .error .endless := by
  induction lines generalizing a with
  | nil => cases h
  | cons line lines ih =>
    rw [addLines_cons] at h
    cases hl : addLine resolve a line with
    | ok b =>
      rw [hl] at h
      obtain ⟨q, hq, he⟩ := ih h
      exact ⟨q, List.mem_cons_of_mem line hq, he⟩
    | error fault =>
      rw [hl] at h
      obtain rfl := Except.error.inj h
      cases line with
      | nested q =>
        rw [addLine] at hl
        split at hl
        · cases hl
        · next he => exact ⟨q, List.mem_cons_self, (Except.error.inj hl) ▸ he⟩
      | _ => cases hl

/-- A filelist that cannot be resolved down to some depth starts a chain of as many references. -/
theorem exists_chain {depth : Nat} {p : Path} (h : resolve fs env depth p = .error .endless) :
    ∃ chain : List Path, chain.length = depth ∧ (p :: chain).IsChain (RefersTo fs env) := by
  induction depth generalizing p with
  | zero => exact ⟨[], rfl, .singleton p⟩
  | succ depth ih =>
    rw [resolve] at h
    split at h
    · cases h
    · next text htext =>
      obtain ⟨q, hq, he⟩ := exists_nested_of_endless h
      obtain ⟨chain, hlen, hchain⟩ := ih he
      exact ⟨q :: chain, congrArg Nat.succ hlen, .cons_cons ⟨text, htext, hq⟩ hchain⟩

theorem exists_refersTo_of_mem_dropLast {chain : List Path} (h : chain.IsChain (RefersTo fs env)) :
    ∀ q ∈ chain.dropLast, ∃ r, RefersTo fs env q r := by
  induction h with
  | nil => exact nofun
  | singleton p => exact nofun
  | @cons_cons p q rest hr _ ih =>
    intro s hs
    rw [List.dropLast_cons_cons] at hs
    rcases List.mem_cons.mp hs with rfl | hs
    · exact ⟨q, hr⟩
    · exact ih s hs

theorem pairwise_reaches {chain : List Path} (h : chain.IsChain (RefersTo fs env)) :
    chain.Pairwise (Reaches fs env) :=
  (h.imp fun _ _ => Relation.TransGen.single).pairwise

/-- A chain of readable filelists none of which reaches itself is no longer than the number of
files: each has a place of its own. -/
theorem length_le_of_isChain {chain : List Path} (hchain : chain.IsChain (RefersTo fs env))
    (hread : ∀ q ∈ chain, ∃ text, fs.readText q = .ok text)
    (hself : ∀ q ∈ chain, ¬ Reaches fs env q q) : chain.length ≤ fs.entries.length := by
  have hnodup : (chain.map fs.place).Nodup := by
    rw [List.Nodup, List.pairwise_map]
    refine (pairwise_reaches hchain).imp_of_mem fun {p q} _ hq hpq he => hself q hq ?_
    exact hpq.of_place_eq he
  have hsub : chain.map fs.place ⊆ fs.entries.map (.ok ∘ Prod.fst) := by
    intro place hplace
    obtain ⟨q, hq, rfl⟩ := List.mem_map.mp hplace
    obtain ⟨text, htext⟩ := hread q hq
    exact FileSystem.place_of_readText htext
  simpa only [List.length_map] using (hnodup.subperm hsub).length_le

/-- Only filelists that lead to one that reaches itself are endless. -/
theorem load_ne_endless {p : Path}
    (h : ∀ q, Relation.ReflTransGen (RefersTo fs env) p q → ¬ Reaches fs env q q) :
    load fs env p ≠ .error .endless := by
  intro he
  obtain ⟨chain, hlen, hchain⟩ := exists_chain he
  -- the filelists of the chain but its last one refer to the next one, and so can be read
  have hle := length_le_of_isChain (hchain.dropLast) (fun q hq => ?_) fun q hq => ?_
  · rw [List.length_dropLast, List.length_cons, hlen] at hle
    omega
  · obtain ⟨r, text, htext, -⟩ := exists_refersTo_of_mem_dropLast hchain q hq
    exact ⟨text, htext⟩
  · rcases List.mem_cons.mp (List.dropLast_subset _ hq) with rfl | hq
    · exact h q .refl
    · exact h q (List.rel_of_pairwise_cons (pairwise_reaches hchain) hq).to_reflTransGen

/-- A filelist that can be resolved can be resolved one level less deep: its chains of references
are no longer than the number of files. -/
theorem resolve_of_load {p : Path} {list : Filelist} (h : load fs env p = .ok list) :
    resolve fs env fs.entries.length p = .ok list := by
  have hne : resolve fs env fs.entries.length p ≠ .error .endless := by
    intro he
    obtain ⟨chain, hlen, hchain⟩ := exists_chain he
    have hresolved : ∀ q ∈ p :: chain, ∃ depth inner, resolve fs env depth q = .ok inner := by
      intro q hq
      rcases List.mem_cons.mp hq with rfl | hq
      · exact ⟨_, list, h⟩
      · obtain ⟨depth, -, hdepth⟩ := resolve_of_reaches h (List.rel_of_pairwise_cons (pairwise_reaches hchain) hq)
        exact ⟨depth, hdepth⟩
    have hle := length_le_of_isChain hchain (fun q hq => ?_) fun q hq => ?_
    · rw [List.length_cons] at hle
      omega
    · obtain ⟨depth, inner, hinner⟩ := hresolved q hq
      cases depth with
      | zero => cases hinner
      | succ depth =>
        obtain ⟨text, htext, -⟩ := readText_of_resolve hinner
        exact ⟨text, htext⟩
    · obtain ⟨depth, inner, hinner⟩ := hresolved q hq
      exact not_reaches_self hinner
  rw [← h, load, resolve_eq_of_le (Nat.le_succ _) hne]

end Filelist

end HdlLint
