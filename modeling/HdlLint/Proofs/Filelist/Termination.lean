import HdlLint.Program
import HdlLint.Proofs.FileSystem.Name
import HdlLint.Proofs.Filelist.Route
import Mathlib.Data.List.Dedup
import Mathlib.Tactic.Choose
import Mathlib.Tactic.Push

/-!
# When resolving a filelist ends

Resolving has no end at any depth if and only if a cycle is closed before a filelist is met that
cannot be read (`load_eq_endless_iff`): a route that goes on as deep as there are files meets one of
them twice. Otherwise it gives a result where all filelists that it leads to can be read, and the
fault of the first one in reading order where one cannot. Without a cycle it goes no deeper than
there are filelists (`resolve_eq_load`). `load_ends` puts it together; a fault has no message where
the name holds a null character (`load_nul_has_no_message`).
-/

namespace HdlLint

theorem Program.message?_unreadable {path : Path} {fault : FileSystem.ReadFault}
    (hf : fault ≠ .file .nulInName) :
    (FatalError.filelist (.unreadable path fault)).message? =
      some (s!"failed to open '{path}': " ++ fault.message path) := by
  cases fault with
  | encoding fault => rfl
  | file fault =>
    cases fault with
    | nulInName => exact absurd rfl hf
    | _ => rfl

namespace Filelist

variable {fs : FileSystem} {env : Environment} {root : Path}

/-- Whether a filelist leads to no filelist that reaches itself. -/
def IsAcyclic (fs : FileSystem) (env : Environment) (root : Path) : Prop :=
  ∀ q, Leads fs env root q → ¬ Reaches fs env q q

/-- The first filelist in reading order that cannot be read is at the end of a route. -/
structure FirstUnreadable (fs : FileSystem) (env : Environment) (root : Path) (route : List Nat)
    (path : Path) (cause : FileSystem.ReadFault) : Prop where
  follow : follow? fs env root route = some path
  unreadable : fs.readText path = .error cause
  before : ReadableBefore fs env root route

/-- A cycle is closed before a filelist is met that cannot be read: a route leads to a filelist, and
goes on from there until it is back. -/
def MeetsCycle (fs : FileSystem) (env : Environment) (root : Path) : Prop :=
  ∃ route round path, round ≠ [] ∧ follow? fs env root route = some path ∧
    follow? fs env path round = some path ∧ ReadableBefore fs env root (route ++ round)

theorem FirstUnreadable.unique {route route' : List Nat} {path path' : Path}
    {cause cause' : FileSystem.ReadFault} (h : FirstUnreadable fs env root route path cause)
    (h' : FirstUnreadable fs env root route' path' cause') : path = path' ∧ cause = cause' := by
  have hne : ∀ {r r' p p' c c'}, FirstUnreadable fs env root r p c →
      FirstUnreadable fs env root r' p' c' → ¬ r < r' := by
    intro r r' p p' c c' h h' hlt
    obtain ⟨text, htext⟩ := h'.before r hlt p h.follow
    rw [h.unreadable] at htext
    cases htext
  obtain rfl : route = route' := le_antisymm (not_lt.mp (hne h' h)) (not_lt.mp (hne h h'))
  obtain rfl := Option.some.inj (h.follow.symm.trans h'.follow)
  exact ⟨rfl, Except.error.inj (h.unreadable.symm.trans h'.unreadable)⟩

/-! ## With a cycle -/

theorem MeetsCycle.exists_reaches (h : MeetsCycle fs env root) :
    ∃ q, Leads fs env root q ∧ Reaches fs env q q := by
  obtain ⟨route, round, path, hne, hroute, hround, -⟩ := h
  exact ⟨path, leads_of_follow? hroute, reaches_of_follow? hne hround⟩

/-- A cycle that is met is met from one of the references too, and all before that one can be
read. -/
theorem MeetsCycle.next (h : MeetsCycle fs env root) :
    ∃ i m, (references fs env root)[i]? = some m ∧ MeetsCycle fs env m ∧
      ReadableBefore fs env root [i] := by
  obtain ⟨route, round, path, hne, hroute, hround, hread⟩ := h
  cases route with
  | cons i route =>
    obtain ⟨m, hm, hroute'⟩ := follow?_cons_eq_some_iff.mp hroute
    refine ⟨i, m, hm, ⟨route, round, path, hne, hroute', hround, fun r hr q hq => ?_⟩, hread.mono ?_⟩
    · exact hread (i :: r) (List.cons_lt_cons_iff.mpr (.inr ⟨rfl, hr⟩)) q
        (follow?_cons_eq_some_iff.mpr ⟨m, hm, hq⟩)
    · exact le_append [i] (route ++ round)
  | nil =>
    -- the cycle starts here, so the reference stands on it: there it starts one step later
    obtain rfl := Option.some.inj hroute
    cases round with
    | nil => exact absurd rfl hne
    | cons i round =>
      obtain ⟨m, hm, hround'⟩ := follow?_cons_eq_some_iff.mp hround
      have hone : follow? fs env root [i] = some m := follow?_cons_eq_some_iff.mpr ⟨m, hm, rfl⟩
      have hfirst : ReadableBefore fs env root [i] :=
        hread.mono (le_append [i] round)
      refine ⟨i, m, hm, ⟨[], round ++ [i], m, by simp, rfl, ?_, fun r hr q hq => ?_⟩, hfirst⟩
      · rw [follow?_append_of_eq_some hround', hone]
      · rw [List.nil_append] at hr
        rcases lt_append_cases hr with hr | ⟨s, hs, rfl⟩
        · exact hread (i :: r) (List.cons_lt_cons_iff.mpr (.inr ⟨rfl, hr⟩)) q
            (follow?_cons_eq_some_iff.mpr ⟨m, hm, hq⟩)
        · rw [follow?_append_of_eq_some hround'] at hq
          exact hfirst s hs q hq

/-- Where all that is read for a reference can be read, it fails only because it has no end. -/
theorem eq_endless_of_readableBefore {depth i : Nat} {q : Path} {before after : List Path}
    {route : List Nat} {fault : FilelistFault} (hq : resolve fs env depth q = .error fault)
    (hrefs : references fs env root = before ++ q :: after) (hlt : before.length < i)
    (hread : ReadableBefore fs env root (i :: route)) : fault = .endless := by
  obtain ⟨below, path, hpath, -, ⟨cause, hcause, -⟩ | ⟨hfault, -⟩⟩ := exists_route_of_error hq
  · obtain ⟨text, htext⟩ := hread (before.length :: below)
      (List.cons_lt_cons_iff.mpr (.inl hlt)) path ((follow?_length_cons hrefs below).trans hpath)
    rw [hcause] at htext
    cases htext
  · exact hfault

/-- Where a cycle is met, resolving has no end at any depth. -/
theorem MeetsCycle.resolve_eq (h : MeetsCycle fs env root) (depth : Nat) :
    resolve fs env depth root = .error .endless := by
  induction depth generalizing root with
  | zero => rfl
  | succ depth ih =>
    obtain ⟨i, m, hm, hcycle, hread⟩ := h.next
    have hunresolved : ∀ {depth list}, resolve fs env depth m ≠ .ok list := by
      intro depth list hlist
      obtain ⟨q, hq, hself⟩ := hcycle.exists_reaches
      exact not_reaches_of_leads hlist hq hself
    cases hroot : resolve fs env (depth + 1) root with
    | ok list =>
      obtain ⟨q, hq, hself⟩ := h.exists_reaches
      exact absurd hself (not_reaches_of_leads hroot hq)
    | error fault =>
      rcases resolve_eq_error_iff.mp hroot with ⟨cause, hcause, -⟩ | ⟨before, q, after, hrefs, hbefore, hq⟩
      · obtain ⟨text, htext⟩ := hread [] (List.nil_lt_cons i []) root rfl
        rw [hcause] at htext
        cases htext
      · rw [hrefs] at hm
        rcases Nat.lt_trichotomy before.length i with hlt | rfl | hgt
        · rw [eq_endless_of_readableBefore hq hrefs hlt hread]
        · rw [List.getElem?_append_right (Nat.le_refl _), Nat.sub_self] at hm
          obtain rfl := Option.some.inj hm
          rw [← hq, ih hcycle]
        · rw [List.getElem?_append_left hgt] at hm
          obtain ⟨list, hlist⟩ := hbefore m (List.mem_of_getElem? hm)
          exact absurd hlist hunresolved

/-- A route that meets one file twice closes a cycle, if all before its end can be read. -/
theorem meetsCycle_of_place_eq {route round : List Nat} {p q : Path} (hne : round ≠ [])
    (hp : follow? fs env root route = some p) (hq : follow? fs env p round = some q)
    (hplace : fs.place p = fs.place q) (hread : ReadableBefore fs env root (route ++ round))
    (hreadable : ∃ text, fs.readText q = .ok text) : MeetsCycle fs env root := by
  have hrefs : references fs env p = references fs env q := by
    simp only [references, FileSystem.readText_of_place_eq hplace]
  have hend : follow? fs env root (route ++ round) = some q := by
    rw [follow?_append_of_eq_some hp, hq]
  refine ⟨route ++ round, round, q, hne, hend, (follow?_congr hrefs hne).symm.trans hq, ?_⟩
  -- what is read from the second name on was read from the first one on
  intro r hr path hpath
  rcases lt_append_cases hr with hr | ⟨s, hs, rfl⟩
  · exact hread r hr path hpath
  · rw [follow?_append_of_eq_some hend] at hpath
    cases s with
    | nil => exact Option.some.inj hpath ▸ hreadable
    | cons i s =>
      rw [← follow?_congr hrefs (List.cons_ne_nil i s)] at hpath
      refine hread (route ++ i :: s) (List.append_left_lt hs) path ?_
      rw [follow?_append_of_eq_some hp, hpath]

/-- A route that is long enough meets one file twice: there are more parts of it than files. -/
theorem exists_lt_place_eq {at' : Nat → Path}
    (hreadable : ∀ n ≤ fs.entries.length, ∃ text, fs.readText (at' n) = .ok text) :
    ∃ m n, m < n ∧ n ≤ fs.entries.length ∧ fs.place (at' m) = fs.place (at' n) := by
  by_contra hnone
  push Not at hnone
  have hnodup : ((List.range (fs.entries.length + 1)).map fun n => fs.place (at' n)).Nodup := by
    rw [List.Nodup, List.pairwise_map]
    refine List.pairwise_lt_range.imp_of_mem fun {m n} _ hn hmn => ?_
    exact hnone m n hmn (Nat.lt_succ_iff.mp (List.mem_range.mp hn))
  have hsub : ((List.range (fs.entries.length + 1)).map fun n => fs.place (at' n)) ⊆
      fs.entries.map (.ok ∘ Prod.fst) := by
    intro place hplace
    obtain ⟨n, hn, rfl⟩ := List.mem_map.mp hplace
    obtain ⟨text, htext⟩ := hreadable n (Nat.lt_succ_iff.mp (List.mem_range.mp hn))
    exact FileSystem.place_of_readText htext
  have hle := (hnodup.subperm hsub).length_le
  rw [List.length_map, List.length_map, List.length_range] at hle
  omega

/-- A part of a route ends at a filelist that can be read, if all before the end can be. -/
theorem exists_follow?_take {route : List Nat} {last : Path}
    (hlast : follow? fs env root route = some last) (hread : ReadableBefore fs env root route)
    {n : Nat} (hn : n < route.length) :
    ∃ p, follow? fs env root (route.take n) = some p ∧ ∃ text, fs.readText p = .ok text := by
  rw [← List.take_append_drop n route, follow?_append] at hlast
  obtain ⟨p, hp, -⟩ := Option.bind_eq_some_iff.mp hlast
  refine ⟨p, hp, hread _ ?_ p hp⟩
  have hdrop : route.drop n ≠ [] := by
    rw [Ne, List.drop_eq_nil_iff]
    omega
  have hlt : route.take n < route.take n ++ route.drop n := lt_append hdrop
  rwa [List.take_append_drop] at hlt

/-- Resolving is endless if and only if a cycle is met. -/
theorem load_eq_endless_iff : load fs env root = .error .endless ↔ MeetsCycle fs env root := by
  refine ⟨fun hload => ?_, fun h => h.resolve_eq _⟩
  obtain ⟨route, last, hlast, hread, ⟨cause, -, hfault⟩ | ⟨-, hlen⟩⟩ := exists_route_of_error hload
  · cases hfault
  have hpart : ∀ n ≤ fs.entries.length, ∃ p, follow? fs env root (route.take n) = some p ∧
      ∃ text, fs.readText p = .ok text :=
    fun n hn => exists_follow?_take hlast hread (by omega)
  choose! at' hat hreadable using hpart
  obtain ⟨m, n, hmn, hn, hplace⟩ := exists_lt_place_eq hreadable
  have hround : (route.take n).drop m ≠ [] := by
    rw [Ne, List.drop_eq_nil_iff, List.length_take]
    omega
  have htake : route.take m ++ (route.take n).drop m = route.take n := by
    conv_rhs => rw [← List.take_append_drop m (route.take n), List.take_take, Nat.min_eq_left hmn.le]
  have hq : follow? fs env (at' m) ((route.take n).drop m) = some (at' n) := by
    rw [← follow?_append_of_eq_some (hat m (hmn.le.trans hn)), htake, hat n hn]
  refine meetsCycle_of_place_eq hround (hat m (hmn.le.trans hn)) hq hplace ?_ (hreadable n hn)
  rw [htake]
  refine hread.mono ?_
  conv_rhs => rw [← List.take_append_drop n route]
  exact le_append _ _

/-! ## What resolving gives -/

theorem load_eq_ok_iff : (∃ list, load fs env root = .ok list) ↔ ¬ MeetsCycle fs env root ∧
    ∀ q, Leads fs env root q → ∃ text, fs.readText q = .ok text := by
  rw [← load_eq_endless_iff]
  constructor
  · rintro ⟨list, hlist⟩
    exact ⟨fun h => (nomatch hlist.symm.trans h), fun q hq => readText_of_leads hlist hq⟩
  · rintro ⟨hends, hread⟩
    cases hload : load fs env root with
    | ok list => exact ⟨list, rfl⟩
    | error fault =>
      obtain ⟨route, path, hpath, -, ⟨cause, hcause, -⟩ | ⟨rfl, -⟩⟩ := exists_route_of_error hload
      · obtain ⟨text, htext⟩ := hread path (leads_of_follow? hpath)
        rw [htext] at hcause
        cases hcause
      · exact absurd hload hends

theorem load_eq_unreadable_iff {path : Path} {cause : FileSystem.ReadFault} :
    load fs env root = .error (.unreadable path cause) ↔
      ¬ MeetsCycle fs env root ∧ ∃ route, FirstUnreadable fs env root route path cause := by
  rw [← load_eq_endless_iff]
  constructor
  · intro hload
    refine ⟨fun h => ?_, ?_⟩
    · rw [hload] at h
      cases h
    · obtain ⟨route, path', hpath, hread, ⟨cause', hcause, hfault⟩ | ⟨hfault, -⟩⟩ :=
        exists_route_of_error hload
      · obtain ⟨rfl, rfl⟩ := FilelistFault.unreadable.inj hfault
        exact ⟨route, hpath, hcause, hread⟩
      · cases hfault
  · rintro ⟨hends, route, hfirst⟩
    cases hload : load fs env root with
    | ok list =>
      obtain ⟨text, htext⟩ := readText_of_leads hload (leads_of_follow? hfirst.follow)
      rw [hfirst.unreadable] at htext
      cases htext
    | error fault =>
      obtain ⟨route', path', hpath, hread, ⟨cause', hcause, rfl⟩ | ⟨rfl, -⟩⟩ :=
        exists_route_of_error hload
      · obtain ⟨rfl, rfl⟩ := hfirst.unique ⟨hpath, hcause, hread⟩
        rfl
      · exact absurd hload hends

/-! ## Without a cycle -/

/-- The filelists that an entry names, if it is a filelist. -/
def referencesOf (env : Environment) : Entry → List Path
  | .directory => []
  | .file bytes =>
    match Text.decode bytes with
    | .error _ => []
    | .ok chars => (linesOf env (FileSystem.newlines chars)).flatMap FilelistLine.references

theorem mem_referencesOf {p q : Path} (h : RefersTo fs env p q) :
    q ∈ fs.entries.flatMap fun e => referencesOf env e.2 := by
  obtain ⟨text, htext, hq⟩ := h
  obtain ⟨bytes, chars, hread, hdecode, rfl⟩ := FileSystem.readText_eq_ok_iff.mp htext
  obtain ⟨place, -, hentry⟩ := FileSystem.exists_entry_of_read hread
  refine List.mem_flatMap.mpr ⟨_, hentry, ?_⟩
  rw [referencesOf, hdecode]
  exact mem_references_iff.mpr hq

/-- A filelist leads to finitely many filelists: their names stand in the files. -/
theorem exists_reachable (fs : FileSystem) (env : Environment) (root : Path) :
    ∃ paths : List Path, paths.Nodup ∧ ∀ q, q ∈ paths ↔ Leads fs env root q := by
  classical
  refine ⟨((root :: fs.entries.flatMap fun e => referencesOf env e.2).dedup).filter
    fun q => Leads fs env root q, (List.nodup_dedup _).filter _, fun q => ?_⟩
  rw [List.mem_filter, List.mem_dedup, decide_eq_true_eq]
  refine ⟨And.right, fun hq => ⟨?_, hq⟩⟩
  rcases Relation.ReflTransGen.cases_tail hq with rfl | ⟨p, -, hp⟩
  · exact List.mem_cons_self
  · exact List.mem_cons_of_mem _ (mem_referencesOf hp)

/-- A chain without a cycle is no longer than there are filelists that its first one leads to. -/
theorem length_le_of_isAcyclic (hacyclic : IsAcyclic fs env root) {chain paths : List Path}
    (hchain : (root :: chain).IsChain (RefersTo fs env)) (hpaths : ∀ q, Leads fs env root q → q ∈ paths) :
    (root :: chain).length ≤ paths.length := by
  have hpair := pairwise_reaches hchain
  have hleads : ∀ q ∈ root :: chain, Leads fs env root q := by
    intro q hq
    rcases List.mem_cons.mp hq with rfl | hq
    · exact .refl
    · exact (List.rel_of_pairwise_cons hpair hq).to_reflTransGen
  have hnodup : (root :: chain).Nodup :=
    hpair.imp_of_mem fun {p q} hp _ hpq he => by
      subst he
      exact hacyclic p (hleads p hp) hpq
  exact (hnodup.subperm fun q hq => hpaths q (hleads q hq)).length_le

/-- Without a cycle resolving goes no deeper than there are filelists. -/
theorem resolve_eq_load (hacyclic : IsAcyclic fs env root) {paths : List Path}
    (hpaths : ∀ q, Leads fs env root q → q ∈ paths) {depth : Nat} (hdepth : paths.length ≤ depth) :
    resolve fs env depth root = load fs env root := by
  have hload : load fs env root ≠ .error .endless := load_ne_endless hacyclic
  have hne : resolve fs env depth root ≠ .error .endless := by
    intro he
    obtain ⟨chain, hlen, hchain⟩ := exists_chain he
    have hle := length_le_of_isAcyclic hacyclic hchain hpaths
    rw [List.length_cons, hlen] at hle
    omega
  rcases Nat.le_total depth (fs.entries.length + 1) with hle | hle
  · exact (resolve_eq_of_le hle hne).symm
  · exact resolve_eq_of_le hle hload

/-- A measure that gets smaller with each reference shows that there is no cycle. -/
theorem isAcyclic_of_measure (measure : Path → Nat)
    (h : ∀ p, Leads fs env root p → ∀ q ∈ references fs env p, measure q < measure p) :
    IsAcyclic fs env root := by
  intro q hq hself
  have hlt : ∀ r, Reaches fs env q r → measure r < measure q := by
    intro r hr
    induction hr with
    | single hr => exact h q hq _ (refersTo_iff.mp hr)
    | tail hp hr ih => exact (h _ (hq.trans hp.to_reflTransGen) _ (refersTo_iff.mp hr)).trans ih
  exact lt_irrefl _ (hlt q hself)

/-- All that a filelist leads to is among paths that are closed under what they refer to. -/
theorem mem_of_leads {paths : List Path} (hroot : root ∈ paths)
    (hclosed : ∀ p ∈ paths, ∀ q ∈ references fs env p, q ∈ paths) {q : Path}
    (hq : Leads fs env root q) : q ∈ paths := by
  induction hq with
  | refl => exact hroot
  | tail _ hr ih => exact hclosed _ ih _ (refersTo_iff.mp hr)

theorem IsAcyclic.not_meetsCycle (h : IsAcyclic fs env root) : ¬ MeetsCycle fs env root := by
  intro hcycle
  obtain ⟨q, hq, hself⟩ := hcycle.exists_reaches
  exact h q hq hself

/-- A filelist leads to finitely many filelists. Where it leads to no cycle, it is resolved no deeper
than there are of them, and any more depth gives the same. Resolving gives a result if and only if
all of them can be read, and fails at the first one in reading order that cannot be, unless a cycle
is closed before: then no depth gives a result. A failure names the filelist that cannot be read, but
it has no message where the name holds a null character. -/
theorem load_ends (fs : FileSystem) (env : Environment) (root : Path) :
    (∃ paths : List Path, paths.Nodup ∧ (∀ q, q ∈ paths ↔ Leads fs env root q) ∧
      (IsAcyclic fs env root → ∀ depth, paths.length ≤ depth →
        resolve fs env depth root = load fs env root)) ∧
    (IsAcyclic fs env root → ¬ MeetsCycle fs env root) ∧
    ((∃ list, load fs env root = .ok list) ↔ ¬ MeetsCycle fs env root ∧
      ∀ q, Leads fs env root q → ∃ text, fs.readText q = .ok text) ∧
    (∀ path cause, load fs env root = .error (.unreadable path cause) ↔
      ¬ MeetsCycle fs env root ∧ ∃ route, FirstUnreadable fs env root route path cause) ∧
    (load fs env root = .error .endless ↔ MeetsCycle fs env root) ∧
    (MeetsCycle fs env root → ∀ depth, resolve fs env depth root = .error .endless) ∧
    ∀ path cause, load fs env root = .error (.unreadable path cause) →
      (path.HasNul ∧ (FatalError.filelist (.unreadable path cause)).message? = none) ∨
      (¬ path.HasNul ∧ (FatalError.filelist (.unreadable path cause)).message? =
        some (s!"failed to open '{path}': " ++ cause.message path)) := by
  obtain ⟨paths, hnodup, hpaths⟩ := exists_reachable fs env root
  refine ⟨⟨paths, hnodup, hpaths, fun hacyclic depth hdepth =>
      resolve_eq_load hacyclic (fun q => (hpaths q).mpr) hdepth⟩,
    IsAcyclic.not_meetsCycle, load_eq_ok_iff, fun path cause => load_eq_unreadable_iff,
    load_eq_endless_iff, fun h depth => h.resolve_eq depth, fun path cause hload => ?_⟩
  obtain ⟨-, route, hfirst⟩ := load_eq_unreadable_iff.mp hload
  by_cases hnul : path.HasNul
  · obtain rfl : .file .nulInName = cause := by
      exact Except.error.inj ((FileSystem.readText_eq_nul_iff.mpr hnul).symm.trans hfirst.unreadable)
    exact .inl ⟨hnul, rfl⟩
  · refine .inr ⟨hnul, Program.message?_unreadable fun hcause => hnul ?_⟩
    rw [← FileSystem.readText_eq_nul_iff, hfirst.unreadable, hcause]

/-- Files where a filelist names one that is there and one that is not, another one names itself, and
a third one holds a null character in a name. -/
def brokenSample : FileSystem :=
  { current := ["w"]
    entries := [(["w", "a.f"], .file "a.sv\n-f b.f\n-f c.f\n".toUTF8.toList),
      (["w", "b.f"], .file "b.sv\n".toUTF8.toList),
      (["w", "d.f"], .file "-f d.f\n-f c.f\n".toUTF8.toList),
      (["w", "e.f"], .file "a.sv\n-f in\x00ner.f\n".toUTF8.toList)] }

theorem isAcyclic_brokenSample {paths : List Path} (hroot : root ∈ paths)
    (h : ∀ p ∈ paths, ∀ q ∈ references brokenSample ⟨[]⟩ p, q ∈ paths ∧
      (references brokenSample ⟨[]⟩ q).length < (references brokenSample ⟨[]⟩ p).length) :
    IsAcyclic brokenSample ⟨[]⟩ root :=
  isAcyclic_of_measure (fun p => (references brokenSample ⟨[]⟩ p).length) fun p hp q hq =>
    (h p (mem_of_leads hroot (fun p hp q hq => (h p hp q hq).1) hp) q hq).2

/-- The filelist with a missing one behind it is resolved down to the third level, which is as deep
as can be; the one that names itself has no end before the missing one is met. -/
theorem load_ends_broken :
    resolve brokenSample ⟨[]⟩ 3 ⟨.relative, ["a.f"]⟩ =
      .error (.unreadable ⟨.relative, ["c.f"]⟩ (.file .notFound)) ∧
    ∀ depth, resolve brokenSample ⟨[]⟩ depth ⟨.relative, ["d.f"]⟩ = .error .endless := by
  have hpaths : ∀ p ∈ [⟨.relative, ["a.f"]⟩, ⟨.relative, ["b.f"]⟩, ⟨.relative, ["c.f"]⟩],
      ∀ q ∈ references brokenSample ⟨[]⟩ p,
        q ∈ [⟨.relative, ["a.f"]⟩, ⟨.relative, ["b.f"]⟩, (⟨.relative, ["c.f"]⟩ : Path)] ∧
        (references brokenSample ⟨[]⟩ q).length < (references brokenSample ⟨[]⟩ p).length := by
    decide +kernel
  have htext : brokenSample.readText ⟨.relative, ["b.f"]⟩ = .ok "b.sv\n".toList :=
    FileSystem.readText_eq_ok_iff.mpr ⟨_, _, rfl, Text.decode_toUTF8 _, by decide +kernel⟩
  have hacyclic := isAcyclic_brokenSample List.mem_cons_self hpaths
  have hends := load_ends brokenSample ⟨[]⟩ ⟨.relative, ["a.f"]⟩
  have hloops := load_ends brokenSample ⟨[]⟩ ⟨.relative, ["d.f"]⟩
  obtain ⟨⟨reachable, hnodup, hreachable, hdepth⟩, hcycle, -, hunreadable, -⟩ := hends
  have hcard : reachable.length ≤ 3 :=
    (hnodup.subperm fun q hq => mem_of_leads List.mem_cons_self
      (fun p hp q hq => (hpaths p hp q hq).1) ((hreachable q).mp hq)).length_le
  have hfirst : FirstUnreadable brokenSample ⟨[]⟩ ⟨.relative, ["a.f"]⟩ [1] ⟨.relative, ["c.f"]⟩
      (.file .notFound) := by
    have hrefs : references brokenSample ⟨[]⟩ ⟨.relative, ["a.f"]⟩ =
        [⟨.relative, ["b.f"]⟩] ++ ⟨.relative, ["c.f"]⟩ :: [] := by decide +kernel
    refine ⟨by decide +kernel, by decide +kernel, readableBefore_cons hrefs
      (fun b hb r hr => ?_) fun r hr => absurd hr (List.not_lt_nil r)⟩
    obtain rfl := List.mem_singleton.mp (mem_of_leads hb (by decide +kernel) hr)
    exact ⟨_, htext⟩
  have hround : MeetsCycle brokenSample ⟨[]⟩ ⟨.relative, ["d.f"]⟩ := by
    have hrefs : references brokenSample ⟨[]⟩ ⟨.relative, ["d.f"]⟩ =
        [] ++ ⟨.relative, ["d.f"]⟩ :: [⟨.relative, ["c.f"]⟩] := by decide +kernel
    exact ⟨[], [0], ⟨.relative, ["d.f"]⟩, List.cons_ne_nil _ _, rfl, by decide +kernel,
      readableBefore_cons hrefs nofun fun r hr => absurd hr (List.not_lt_nil r)⟩
  refine ⟨?_, hloops.2.2.2.2.2.1 hround⟩
  rw [hdepth hacyclic 3 hcard]
  exact (hunreadable _ _).mpr ⟨hcycle hacyclic, [1], hfirst⟩

/-- A name with a null character makes resolving fail without a message. -/
theorem load_nul_has_no_message :
    IsAcyclic brokenSample ⟨[]⟩ ⟨.relative, ["e.f"]⟩ ∧
    FirstUnreadable brokenSample ⟨[]⟩ ⟨.relative, ["e.f"]⟩ [0] ⟨.relative, ["in\x00ner.f"]⟩
      (.file .nulInName) ∧
    ∃ fault, load brokenSample ⟨[]⟩ ⟨.relative, ["e.f"]⟩ = .error fault ∧
      (FatalError.filelist fault).message? = none := by
  have hpaths : ∀ p ∈ [⟨.relative, ["e.f"]⟩, ⟨.relative, ["in\x00ner.f"]⟩],
      ∀ q ∈ references brokenSample ⟨[]⟩ p,
        q ∈ [⟨.relative, ["e.f"]⟩, (⟨.relative, ["in\x00ner.f"]⟩ : Path)] ∧
        (references brokenSample ⟨[]⟩ q).length < (references brokenSample ⟨[]⟩ p).length := by
    decide +kernel
  have hrefs : references brokenSample ⟨[]⟩ ⟨.relative, ["e.f"]⟩ =
      [] ++ ⟨.relative, ["in\x00ner.f"]⟩ :: [] := by decide +kernel
  have hacyclic := isAcyclic_brokenSample List.mem_cons_self hpaths
  have hfirst : FirstUnreadable brokenSample ⟨[]⟩ ⟨.relative, ["e.f"]⟩ [0]
      ⟨.relative, ["in\x00ner.f"]⟩ (.file .nulInName) :=
    ⟨by decide +kernel, by decide +kernel, readableBefore_cons hrefs nofun
      fun r hr => absurd hr (List.not_lt_nil r)⟩
  exact ⟨hacyclic, hfirst, _,
    load_eq_unreadable_iff.mpr ⟨hacyclic.not_meetsCycle, _, hfirst⟩, rfl⟩

end Filelist

end HdlLint
