import HdlLint.Proofs.FileSystem.Write
import HdlLint.Proofs.Filelist.Reference

/-!
# Nested filelists in place

A line that names another filelist may be replaced by the lines of that filelist (`InlineStep`),
again and again (`Inlines`). A step keeps what the lines give (`InlineStep.outcome_eq`), so the
lines that any number of steps lead to, written to a new file, are resolved to the same filelist or
fail with the same fault; unless they fail, lines without nested filelists can be reached.
-/

namespace HdlLint.Filelist

variable {fs fs' : FileSystem} {env : Environment}

/-- One line that names a readable filelist is replaced by the lines of that filelist. -/
inductive InlineStep (fs : FileSystem) (env : Environment) :
    List (List Char) → List (List Char) → Prop
  | replace {path : Path} {raw text : List Char} (before after : List (List Char))
      (hline : FilelistLine.read env raw = .nested path) (hread : fs.readText path = .ok text) :
      InlineStep fs env (before ++ raw :: after) (before ++ (Text.splitLines text ++ after))

/-- Lines are replaced by those of the filelists they name, any number of times. -/
def Inlines (fs : FileSystem) (env : Environment) : List (List Char) → List (List Char) → Prop :=
  Relation.ReflTransGen (InlineStep fs env)

/-- What lines give when filelists are resolved as deep as the number of files allows. -/
def outcome (fs : FileSystem) (env : Environment) (lines : List (List Char)) :
    Except FilelistFault Filelist :=
  addLines (resolve fs env fs.entries.length) empty (lines.map (FilelistLine.read env))

theorem load_eq_outcome {path : Path} {text : List Char} (h : fs.readText path = .ok text) :
    load fs env path = outcome fs env (Text.splitLines text) :=
  load_of_readText h

/-! ## One step -/

/-- A filelist that is not endless adds what its lines add. -/
theorem addLine_nested {path : Path} {text : List Char} (hread : fs.readText path = .ok text)
    (a : Filelist) {depth : Nat} (hne : resolve fs env depth path ≠ .error .endless) :
    addLine (resolve fs env depth) a (.nested path) =
      addLines (resolve fs env depth) a (linesOf env text) := by
  cases depth with
  | zero => exact absurd rfl hne
  | succ depth =>
    have hdeep : resolve fs env (depth + 1) path =
        addLines (resolve fs env depth) empty (linesOf env text) := by
      rw [resolve]
      simp only [hread]
    rw [hdeep] at hne
    -- the lines are added one level deeper than the line that names them
    have hlevel : addLines (resolve fs env (depth + 1)) empty (linesOf env text) =
        addLines (resolve fs env depth) empty (linesOf env text) :=
      addLines_congr (fun q _ hq => resolve_eq_of_le (Nat.le_succ depth) hq) empty hne
    rw [addLines_eq_map_merge, hlevel, addLine, hdeep]
    cases addLines (resolve fs env depth) empty (linesOf env text) <;> rfl

theorem InlineStep.outcome_eq {lines lines' : List (List Char)} (h : InlineStep fs env lines lines')
    (hne : outcome fs env lines ≠ .error .endless) : outcome fs env lines' = outcome fs env lines := by
  cases h with
  | @replace path raw text before after hline hread =>
    rw [outcome, List.map_append, List.map_cons, hline, addLines_append] at hne
    rw [outcome, outcome, List.map_append, List.map_append, List.map_append, List.map_cons, hline,
      addLines_append, addLines_append]
    cases hb : addLines (resolve fs env fs.entries.length) empty
        (before.map (FilelistLine.read env)) with
    | error fault => rfl
    | ok a =>
      simp only [hb, Except.bind, addLines_cons, addLines_append] at hne ⊢
      have hpath : resolve fs env fs.entries.length path ≠ .error .endless :=
        fun he => hne (by simp only [addLine, he])
      rw [addLine_nested hread a hpath]
      rfl

/-! ## All steps -/

/-- What all lines share that the lines of a filelist are replaced by: they hold no line ends, name
only filelists that it reaches, and give the same. -/
structure Stands (fs : FileSystem) (env : Environment) (path : Path) (lines : List (List Char)) :
    Prop where
  isLine : ∀ line ∈ lines, Text.IsLine line
  reaches : ∀ q, .nested q ∈ lines.map (FilelistLine.read env) → Reaches fs env path q
  outcome : outcome fs env lines = load fs env path

theorem stands_splitLines {path : Path} {text : List Char} (h : fs.readText path = .ok text) :
    Stands fs env path (Text.splitLines text) where
  isLine := Text.isLine_of_mem_splitLines text
  reaches _ hq := .single ⟨text, h, hq⟩
  outcome := (load_eq_outcome h).symm

theorem InlineStep.stands {path : Path} (hload : load fs env path ≠ .error .endless)
    {lines lines' : List (List Char)} (h : InlineStep fs env lines lines')
    (hs : Stands fs env path lines) : Stands fs env path lines' := by
  have hout := (h.outcome_eq (hs.outcome ▸ hload)).trans hs.outcome
  obtain ⟨before, after, hline, hread⟩ := h
  rename_i inner raw text
  refine ⟨fun line hl => ?_, fun q hq => ?_, hout⟩
  · rcases List.mem_append.mp hl with hl | hl
    · exact hs.isLine line (List.mem_append_left _ hl)
    · rcases List.mem_append.mp hl with hl | hl
      · exact Text.isLine_of_mem_splitLines text line hl
      · exact hs.isLine line (List.mem_append_right _ (List.mem_cons_of_mem raw hl))
  · obtain ⟨line, hl, hlq⟩ := List.mem_map.mp hq
    have hmem : ∀ l, FilelistLine.read env l = .nested q → l ∈ before ++ raw :: after →
        Reaches fs env path q := fun l hlq hl => hs.reaches q (hlq ▸ List.mem_map_of_mem hl)
    rcases List.mem_append.mp hl with hl | hl
    · exact hmem line hlq (List.mem_append_left _ hl)
    · rcases List.mem_append.mp hl with hl | hl
      · have hinner : Reaches fs env path inner :=
          hs.reaches inner (hline ▸ List.mem_map_of_mem (List.mem_append_right _ List.mem_cons_self))
        exact hinner.tail ⟨text, hread, hlq ▸ List.mem_map_of_mem hl⟩
      · exact hmem line hlq (List.mem_append_right _ (List.mem_cons_of_mem raw hl))

theorem Inlines.stands {path : Path} (hload : load fs env path ≠ .error .endless)
    {lines lines' : List (List Char)} (h : Inlines fs env lines lines')
    (hs : Stands fs env path lines) : Stands fs env path lines' := by
  induction h with
  | refl => exact hs
  | tail _ hstep ih => exact hstep.stands hload ih

/-- Lines that stand for a filelist give it where all that it reaches still reads the same and
there are no fewer files. -/
theorem Stands.load_eq {path : Path} {lines : List (List Char)} (hs : Stands fs env path lines)
    (hload : load fs env path ≠ .error .endless) {name : Path} {text : List Char}
    (htext : fs'.readText name = .ok text) (hlines : Text.splitLines text = lines)
    (hreads : ∀ q, Reaches fs env path q → fs'.readText q = fs.readText q)
    (hlen : fs.entries.length ≤ fs'.entries.length) : load fs' env name = load fs env path := by
  rw [← hs.outcome] at hload ⊢
  rw [load_eq_outcome htext, hlines]
  refine addLines_congr (fun q hq hqne => resolve_eq_of_reads hlen (fun r hr => ?_) hqne) empty hload
  have hpq := hs.reaches q hq
  exact hreads r (hpq.trans_left hr)

/-! ## Lines without nested filelists -/

theorem InlineStep.congr {lines lines' : List (List Char)} (h : InlineStep fs env lines lines')
    (l r : List (List Char)) : InlineStep fs env (l ++ (lines ++ r)) (l ++ (lines' ++ r)) := by
  obtain ⟨before, after, hline, hread⟩ := h
  have := InlineStep.replace (l ++ before) (after ++ r) hline hread
  simpa only [List.append_assoc, List.cons_append] using this

theorem Inlines.congr {lines lines' : List (List Char)} (h : Inlines fs env lines lines')
    (l r : List (List Char)) : Inlines fs env (l ++ (lines ++ r)) (l ++ (lines' ++ r)) :=
  h.lift (fun ls => l ++ (ls ++ r)) fun _ _ hs => hs.congr l r

/-- Whether no line names a filelist. -/
def IsFlat (env : Environment) (lines : List (List Char)) : Prop :=
  ∀ q, .nested q ∉ lines.map (FilelistLine.read env)

/-- Lines whose nested filelists can all be resolved lead to lines without any. The induction is on
the depth: the lines of a nested filelist are resolved with less of it. -/
theorem exists_flat {depth : Nat} {lines : List (List Char)}
    (h : ∀ q, .nested q ∈ lines.map (FilelistLine.read env) →
      ∃ inner, resolve fs env depth q = .ok inner) :
    ∃ flat, Inlines fs env lines flat ∧ IsFlat env flat := by
  induction depth generalizing lines with
  | zero =>
    refine ⟨lines, .refl, fun q hq => ?_⟩
    obtain ⟨inner, hinner⟩ := h q hq
    cases hinner
  | succ depth ih =>
    induction lines with
    | nil => exact ⟨[], .refl, fun q => List.not_mem_nil⟩
    | cons raw lines ihl =>
      obtain ⟨rest, hrest, hflat⟩ := ihl fun q hq => h q (List.mem_cons_of_mem _ hq)
      have hraw : Inlines fs env (raw :: lines) (raw :: rest) := by
        simpa only [List.append_nil, List.singleton_append] using hrest.congr [raw] []
      by_cases hn : ∃ q, FilelistLine.read env raw = .nested q
      · obtain ⟨q, hq⟩ := hn
        obtain ⟨inner, hinner⟩ := h q (hq ▸ List.mem_cons_self)
        obtain ⟨text, hread, hlines⟩ := readText_of_resolve hinner
        obtain ⟨first, hfirst, hflat'⟩ := ih fun r hr => addLines_ok_nested hlines hr
        refine ⟨first ++ rest, (hraw.tail (.replace [] rest hq hread)).trans
          (hfirst.congr [] rest), fun r hr => ?_⟩
        rw [List.map_append, List.mem_append] at hr
        exact hr.elim (hflat' r) (hflat r)
      · refine ⟨raw :: rest, hraw, fun q hq => ?_⟩
        rcases List.mem_cons.mp hq with hq | hq
        · exact hn ⟨q, hq.symm⟩
        · exact hflat q hq

/-! ## Nested filelists and their lines -/

/-- Nesting is inlining. Lines that replace those of a filelist, whatever nested filelists were
replaced by their lines, can be written to a file, and any file that falls into them and changes
nothing that the filelist reaches is resolved to the same filelist, or fails with the same fault. A
filelist that can be resolved leads to lines that name no filelist. -/
theorem load_inlines {path : Path} {text : List Char} (hread : fs.readText path = .ok text)
    (hload : load fs env path ≠ .error .endless) :
    (∀ lines, Inlines fs env (Text.splitLines text) lines →
      Text.splitLines (FileSystem.newlines (Text.joinLines lines)) = lines ∧
      ∀ (content : String) (name : Path) (fs' : FileSystem),
        Text.splitLines (FileSystem.newlines content.toList) = lines →
        fs.write name content.toUTF8.toList = .ok fs' →
        (∀ q, Reaches fs env path q → fs'.readText q = fs.readText q) →
        load fs' env name = load fs env path) ∧
    ∀ list, load fs env path = .ok list →
      ∃ flat, Inlines fs env (Text.splitLines text) flat ∧ IsFlat env flat := by
  refine ⟨fun lines h => ?_, fun list hlist => ?_⟩
  · have hs := h.stands hload (stands_splitLines hread)
    refine ⟨?_, fun content name fs' hlines hwrite hreads => ?_⟩
    · rw [FileSystem.newlines_of_not_mem (Text.not_mem_joinLines hs.isLine),
        Text.splitLines_joinLines hs.isLine]
    · exact hs.load_eq hload (FileSystem.readText_write hwrite) hlines hreads
        (FileSystem.length_entries_write hwrite)
  · rw [load_of_readText hread] at hlist
    exact exists_flat fun q hq => addLines_ok_nested hlist hq

/-- Files where one filelist names another one between its other lines, with macros defined in
both. -/
def nestedSample : FileSystem :=
  { current := ["w"]
    entries := [(["w", "a.f"], .file "a.sv\n-f b.f\n+define+X=1\n".toUTF8.toList),
      (["w", "b.f"], .file "+define+X=2+Y\nb.sv\n".toUTF8.toList)] }

theorem load_inlines_sample :
    ∃ list fs', load nestedSample ⟨[]⟩ ⟨.relative, ["a.f"]⟩ = .ok list ∧
      list.files = [⟨.relative, ["a.sv"]⟩, ⟨.relative, ["b.sv"]⟩] ∧
      list.defines.names = ["X", "Y"] ∧
      nestedSample.write ⟨.relative, ["c.f"]⟩
        "a.sv\n+define+X=2+Y\nb.sv\n+define+X=1\n".toUTF8.toList = .ok fs' ∧
      load fs' ⟨[]⟩ ⟨.relative, ["c.f"]⟩ = load nestedSample ⟨[]⟩ ⟨.relative, ["a.f"]⟩ := by
  have hread : nestedSample.readText ⟨.relative, ["a.f"]⟩ =
      .ok "a.sv\n-f b.f\n+define+X=1\n".toList :=
    FileSystem.readText_eq_ok_iff.mpr ⟨_, _, rfl, Text.decode_toUTF8 _, by decide +kernel⟩
  have hnested : nestedSample.readText ⟨.relative, ["b.f"]⟩ =
      .ok "+define+X=2+Y\nb.sv\n".toList :=
    FileSystem.readText_eq_ok_iff.mpr ⟨_, _, rfl, Text.decode_toUTF8 _, by decide +kernel⟩
  have hname : nestedSample.exists? ⟨.relative, ["c.f"]⟩ = .ok false := rfl
  have hlist : ((load nestedSample ⟨[]⟩ ⟨.relative, ["a.f"]⟩).toOption.map fun list =>
      (list.files, list.defines.names)) =
        some ([⟨.relative, ["a.sv"]⟩, ⟨.relative, ["b.sv"]⟩], ["X", "Y"]) := by decide +kernel
  -- the one line in the middle is replaced by two
  have hstep : InlineStep nestedSample ⟨[]⟩ (Text.splitLines "a.sv\n-f b.f\n+define+X=1\n".toList)
      ["a.sv".toList, "+define+X=2+Y".toList, "b.sv".toList, "+define+X=1".toList] :=
    InlineStep.replace ["a.sv".toList] ["+define+X=1".toList]
      (show FilelistLine.read ⟨[]⟩ "-f b.f".toList = .nested ⟨.relative, ["b.f"]⟩ by decide +kernel)
      hnested
  cases hload : load nestedSample ⟨[]⟩ ⟨.relative, ["a.f"]⟩ with
  | error fault =>
    rw [hload] at hlist
    cases hlist
  | ok list =>
    rw [hload] at hlist
    obtain ⟨hfiles, hnames⟩ := Prod.mk.inj (Option.some.inj hlist)
    cases hw : nestedSample.write ⟨.relative, ["c.f"]⟩
        "a.sv\n+define+X=2+Y\nb.sv\n+define+X=1\n".toUTF8.toList with
    | error fault => cases hw
    | ok fs' =>
      refine ⟨list, fs', rfl, hfiles, hnames, rfl, ?_⟩
      rw [← hload]
      have h := (load_inlines hread (by rw [hload]; exact fun h => nomatch h)).1 _ (.single hstep)
      exact h.2 _ _ fs' (by decide +kernel) hw fun q hq =>
        readText_write_of_reaches hload hname hw hq

end HdlLint.Filelist
