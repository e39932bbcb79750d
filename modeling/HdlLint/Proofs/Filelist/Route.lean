import HdlLint.Proofs.Filelist.Chain
import HdlLint.Proofs.Filelist.Reading
import Mathlib.Data.List.Lex

/-!
# Routes through filelists

A route says which reference to follow in each filelist, from the first one on (`follow?`). A
filelist is read before those that it names, and these one after the other, each with all below it:
reading goes by routes in lexicographic order. Where resolving a filelist fails, a route leads to
the place, and all that is read before can be read (`exists_route_of_error`).
-/

namespace HdlLint.Filelist

variable {fs : FileSystem} {env : Environment}

/-- Whether a filelist leads to another one, or is the other one. -/
def Leads (fs : FileSystem) (env : Environment) : Path → Path → Prop :=
  Relation.ReflTransGen (RefersTo fs env)

/-- The filelists that a filelist names, in order. One that cannot be read names none. -/
def references (fs : FileSystem) (env : Environment) (p : Path) : List Path :=
  match fs.readText p with
  | .ok text => (linesOf env text).flatMap FilelistLine.references
  | .error _ => []

/-- The filelist at the end of a route: the numbers of the references to follow. -/
def follow? (fs : FileSystem) (env : Environment) : Path → List Nat → Option Path
  | p, [] => some p
  | p, i :: route =>
    match (references fs env p)[i]? with
    | some q => follow? fs env q route
    | none => none

/-- All that is read before the end of a route can be read. -/
def ReadableBefore (fs : FileSystem) (env : Environment) (root : Path) (route : List Nat) : Prop :=
  ∀ r < route, ∀ q, follow? fs env root r = some q → ∃ text, fs.readText q = .ok text

/-! ## References -/

theorem mem_references_iff {lines : List FilelistLine} {q : Path} :
    q ∈ lines.flatMap FilelistLine.references ↔ .nested q ∈ lines := by
  rw [List.mem_flatMap]
  constructor
  · rintro ⟨line, hline, hq⟩
    cases line with
    | nested p => rwa [List.mem_singleton.mp hq]
    | _ => cases hq
  · exact fun h => ⟨_, h, List.mem_singleton.mpr rfl⟩

theorem refersTo_iff {p q : Path} : RefersTo fs env p q ↔ q ∈ references fs env p := by
  rw [references, RefersTo]
  cases h : fs.readText p with
  | error fault => simp
  | ok text =>
    dsimp only
    rw [mem_references_iff]
    simp

theorem readText_of_refersTo {p q : Path} (h : RefersTo fs env p q) :
    ∃ text, fs.readText p = .ok text := by
  obtain ⟨text, htext, -⟩ := h
  exact ⟨text, htext⟩

/-! ## Routes -/

theorem follow?_cons_eq_some_iff {p q : Path} {i : Nat} {route : List Nat} :
    follow? fs env p (i :: route) = some q ↔
      ∃ m, (references fs env p)[i]? = some m ∧ follow? fs env m route = some q := by
  rw [follow?]
  cases (references fs env p)[i]? <;> simp

/-- A reference is followed by the number of references in front of it. -/
theorem follow?_length_cons {p q : Path} {before after : List Path}
    (hrefs : references fs env p = before ++ q :: after) (route : List Nat) :
    follow? fs env p (before.length :: route) = follow? fs env q route := by
  have hget : (references fs env p)[before.length]? = some q := by
    rw [hrefs, List.getElem?_append_right (Nat.le_refl _), Nat.sub_self]
    rfl
  rw [follow?, hget]

theorem follow?_append {p : Path} (route rest : List Nat) :
    follow? fs env p (route ++ rest) = (follow? fs env p route).bind (follow? fs env · rest) := by
  induction route generalizing p with
  | nil => rfl
  | cons i route ih =>
    rw [List.cons_append, follow?, follow?]
    cases (references fs env p)[i]? with
    | none => rfl
    | some m => exact ih

theorem follow?_append_of_eq_some {p q : Path} {route : List Nat}
    (h : follow? fs env p route = some q) (rest : List Nat) :
    follow? fs env p (route ++ rest) = follow? fs env q rest := by
  rw [follow?_append, h, Option.bind_some]

/-- Where a route goes is decided by what its first filelist names. -/
theorem follow?_congr {p q : Path} (h : references fs env p = references fs env q)
    {route : List Nat} (hne : route ≠ []) : follow? fs env p route = follow? fs env q route := by
  cases route with
  | nil => exact absurd rfl hne
  | cons i route => rw [follow?, follow?, h]

theorem leads_of_follow? {p q : Path} {route : List Nat} (h : follow? fs env p route = some q) :
    Leads fs env p q := by
  induction route generalizing p with
  | nil => exact Option.some.inj h ▸ .refl
  | cons i route ih =>
    obtain ⟨m, hm, hroute⟩ := follow?_cons_eq_some_iff.mp h
    exact .head (refersTo_iff.mpr (List.mem_of_getElem? hm)) (ih hroute)

theorem reaches_of_follow? {p q : Path} {route : List Nat} (hne : route ≠ [])
    (h : follow? fs env p route = some q) : Reaches fs env p q := by
  cases route with
  | nil => exact absurd rfl hne
  | cons i route =>
    obtain ⟨m, hm, hroute⟩ := follow?_cons_eq_some_iff.mp h
    exact .head' (refersTo_iff.mpr (List.mem_of_getElem? hm)) (leads_of_follow? hroute)

/-! ## The order of routes -/

theorem lt_append {route rest : List Nat} (hne : rest ≠ []) : route < route ++ rest := by
  induction route with
  | nil =>
    cases rest with
    | nil => exact absurd rfl hne
    | cons i rest => exact List.nil_lt_cons i rest
  | cons i route ih => exact List.cons_lt_cons_iff.mpr (.inr ⟨rfl, ih⟩)

theorem le_append (route rest : List Nat) : route ≤ route ++ rest := by
  by_cases hrest : rest = []
  · rw [hrest, List.append_nil]
  · exact (lt_append hrest).le

/-- What is in front of a route that goes on is in front of its first part, or goes on from there
itself. -/
theorem lt_append_cases {r route rest : List Nat} (h : r < route ++ rest) :
    r < route ∨ ∃ s < rest, r = route ++ s := by
  induction route generalizing r with
  | nil => exact .inr ⟨r, h, rfl⟩
  | cons i route ih =>
    cases r with
    | nil => exact .inl (List.nil_lt_cons _ _)
    | cons j r =>
      rcases List.cons_lt_cons_iff.mp h with hlt | ⟨rfl, hlt⟩
      · exact .inl (List.cons_lt_cons_iff.mpr (.inl hlt))
      · rcases ih hlt with hlt | ⟨s, hs, rfl⟩
        · exact .inl (List.cons_lt_cons_iff.mpr (.inr ⟨rfl, hlt⟩))
        · exact .inr ⟨s, hs, rfl⟩

theorem ReadableBefore.mono {root : Path} {route further : List Nat}
    (h : ReadableBefore fs env root further) (hle : route ≤ further) :
    ReadableBefore fs env root route :=
  fun r hr => h r (lt_of_lt_of_le hr hle)

/-- All before a route that starts with a reference can be read if the references in front lead to
nothing that cannot, and so it is behind the reference. -/
theorem readableBefore_cons {p q : Path} {before after : List Path} {route : List Nat}
    (hrefs : references fs env p = before ++ q :: after)
    (hbefore : ∀ b ∈ before, ∀ r, Leads fs env b r →
      ∃ text, fs.readText r = .ok text)
    (hq : ReadableBefore fs env q route) :
    ReadableBefore fs env p (before.length :: route) := by
  intro r hr path hpath
  cases r with
  | nil =>
    obtain rfl := Option.some.inj hpath
    have hmem : q ∈ references fs env p := by
      rw [hrefs]
      exact List.mem_append_right _ List.mem_cons_self
    exact readText_of_refersTo (refersTo_iff.mpr hmem)
  | cons j r =>
    rcases List.cons_lt_cons_iff.mp hr with hlt | ⟨rfl, hlt⟩
    · obtain ⟨b, hb, hfollow⟩ := follow?_cons_eq_some_iff.mp hpath
      rw [hrefs, List.getElem?_append_left hlt] at hb
      exact hbefore b (List.mem_of_getElem? hb) path (leads_of_follow? hfollow)
    · rw [follow?_length_cons hrefs] at hpath
      exact hq r hlt path hpath

/-! ## Where resolving fails -/

theorem exists_first_cons {α : Type} {P Q : α → Prop} {a : α} {l : List α} :
    (∃ before b after, a :: l = before ++ b :: after ∧ (∀ x ∈ before, P x) ∧ Q b) ↔
      Q a ∨ P a ∧ ∃ before b after, l = before ++ b :: after ∧ (∀ x ∈ before, P x) ∧ Q b := by
  constructor
  · rintro ⟨before, b, after, hl, hbefore, hb⟩
    cases before with
    | nil =>
      obtain ⟨rfl, -⟩ := List.cons.inj hl
      exact .inl hb
    | cons c before =>
      obtain ⟨rfl, htail⟩ := List.cons.inj hl
      obtain ⟨hc, hbefore⟩ := List.forall_mem_cons.mp hbefore
      exact .inr ⟨hc, before, b, after, htail, hbefore, hb⟩
  · rintro (ha | ⟨ha, before, b, after, rfl, hbefore, hb⟩)
    · exact ⟨[], a, l, rfl, List.forall_mem_nil P, ha⟩
    · exact ⟨a :: before, b, after, rfl, List.forall_mem_cons.mpr ⟨ha, hbefore⟩, hb⟩

/-- Adding lines fails at the first filelist they name that cannot be resolved. -/
theorem addLines_eq_error_iff {resolve : Path → Except FilelistFault Filelist} {a : Filelist}
    {lines : List FilelistLine} {fault : FilelistFault} :
    addLines resolve a lines = .error fault ↔
      ∃ before q after, lines.flatMap FilelistLine.references = before ++ q :: after ∧
        (∀ b ∈ before, ∃ list, resolve b = .ok list) ∧ resolve q = .error fault := by
  induction lines generalizing a with
  | nil => simp [addLines]
  | cons line lines ih =>
    rw [List.flatMap_cons]
    by_cases hline : ∃ p, line = .nested p
    · obtain ⟨p, rfl⟩ := hline
      rw [addLines, addLine, FilelistLine.references, List.singleton_append, exists_first_cons]
      cases hp : resolve p with
      | error fault' =>
        refine ⟨.inl, ?_⟩
        rintro (h | ⟨⟨list, hlist⟩, -⟩)
        · exact h
        · cases hlist
      | ok inner =>
        refine ih.trans ⟨fun h => .inr ⟨⟨inner, rfl⟩, h⟩, ?_⟩
        rintro (h | ⟨-, h⟩)
        · cases h
        · exact h
    · have hnone : line.references = [] := by
        cases line with
        | nested p => exact absurd ⟨p, rfl⟩ hline
        | _ => rfl
      rw [addLines_cons, addLine_eq_collect _ _ hnone, hnone]
      exact ih

/-- Resolving fails at a filelist that cannot be read, or at the first one it names that cannot be
resolved. -/
theorem resolve_eq_error_iff {depth : Nat} {p : Path} {fault : FilelistFault} :
    resolve fs env (depth + 1) p = .error fault ↔
      (∃ cause, fs.readText p = .error cause ∧ fault = .unreadable p cause) ∨
        ∃ before q after, references fs env p = before ++ q :: after ∧
          (∀ b ∈ before, ∃ list, resolve fs env depth b = .ok list) ∧
          resolve fs env depth q = .error fault := by
  rw [resolve, references]
  cases hp : fs.readText p with
  | error cause => simp [eq_comm]
  | ok text =>
    dsimp only
    rw [addLines_eq_error_iff]
    simp

/-- What can be resolved leads only to filelists that can be read. -/
theorem readText_of_leads {depth : Nat} {p q : Path} {list : Filelist}
    (h : resolve fs env depth p = .ok list) (hq : Leads fs env p q) :
    ∃ text, fs.readText q = .ok text := by
  have hread : ∀ {depth p list}, resolve fs env depth p = .ok list →
      ∃ text, fs.readText p = .ok text := by
    intro depth p list h
    cases depth with
    | zero => cases h
    | succ depth =>
      obtain ⟨text, htext, -⟩ := readText_of_resolve h
      exact ⟨text, htext⟩
  rcases Relation.reflTransGen_iff_eq_or_transGen.mp hq with rfl | hq
  · exact hread h
  · obtain ⟨depth', -, inner, hinner⟩ := resolve_of_reaches h hq
    exact hread hinner

/-- What can be resolved leads to no filelist that reaches itself. -/
theorem not_reaches_of_leads {depth : Nat} {p q : Path} {list : Filelist}
    (h : resolve fs env depth p = .ok list) (hq : Leads fs env p q) :
    ¬ Reaches fs env q q := by
  rcases Relation.reflTransGen_iff_eq_or_transGen.mp hq with rfl | hq
  · exact not_reaches_self h
  · obtain ⟨depth', -, inner, hinner⟩ := resolve_of_reaches h hq
    exact not_reaches_self hinner

/-- Where resolving fails, a route leads to a filelist that cannot be read or as deep as resolving
goes, and all before it can be read. -/
theorem exists_route_of_error {depth : Nat} {root : Path} {fault : FilelistFault}
    (h : resolve fs env depth root = .error fault) :
    ∃ route path, follow? fs env root route = some path ∧ ReadableBefore fs env root route ∧
      ((∃ cause, fs.readText path = .error cause ∧ fault = .unreadable path cause) ∨
        fault = .endless ∧ route.length = depth) := by
  induction depth generalizing root with
  | zero =>
    obtain rfl := Except.error.inj h
    exact ⟨[], root, rfl, fun r hr => absurd hr (List.not_lt_nil r), .inr ⟨rfl, rfl⟩⟩
  | succ depth ih =>
    rcases resolve_eq_error_iff.mp h with hroot | ⟨before, q, after, hrefs, hbefore, hq⟩
    · exact ⟨[], root, rfl, fun r hr => absurd hr (List.not_lt_nil r), .inl hroot⟩
    · obtain ⟨route, path, hpath, hreadable, hfault⟩ := ih hq
      refine ⟨before.length :: route, path, (follow?_length_cons hrefs route).trans hpath,
        readableBefore_cons hrefs (fun b hb r hr => ?_) hreadable, ?_⟩
      · obtain ⟨list, hlist⟩ := hbefore b hb
        exact readText_of_leads hlist hr
      · exact hfault.imp_right fun ⟨hendless, hlen⟩ => ⟨hendless, congrArg Nat.succ hlen⟩

end HdlLint.Filelist
