import HdlLint.Proofs.Diagnostic.Outcome
import HdlLint.Proofs.Text.Front
import HdlLint.Proofs.Text.Occurs
import HdlLint.Verilog.Reader

/-!
# The name in an error about an included file

The name is looked for in the line that the error points at: it is what stands behind the first
`include` with an opening bracket and a name (`IncludeUse.find?_eq_some_iff`), and it ends at a
closing bracket of either kind. The column of the error is not looked at, so a line that includes
several files, or that names one in a comment, can give the name of another file.

* `Diagnostic.toError_includeFile`: the name in an error about an included file.
-/

namespace HdlLint

namespace IncludeUse

/-- A character that does not end a name. -/
def isPlain (c : Char) : Bool :=
  c ≠ '"' && c ≠ '>'

/-- What stands between `include` and the end of a name: blanks, a bracket, and the name. -/
structure Names (s name : List Char) : Prop where
  ne_nil : name ≠ []
  isPlain : ∀ c ∈ name, isPlain c = true
  stands : ∃ blanks bracket after, s = blanks ++ bracket :: (name ++ after) ∧
    (∀ c ∈ blanks, Text.isBlank c = true) ∧ (bracket = '"' ∨ bracket = '<') ∧
    ∀ c ∈ after.head?, IncludeUse.isPlain c = false

/-- Whether a name is opened at a place of a text. -/
def Opens (s : List Char) (start : Nat) (name : List Char) : Prop :=
  ∃ before after, s = before ++ ("\x60include".toList ++ after) ∧ before.length = start ∧
    Names after name

/-- The first place of a text where a name is opened. -/
structure FirstOpens (s : List Char) (start : Nat) (name : List Char) : Prop where
  opens : Opens s start name
  le : ∀ start' name', Opens s start' name' → start ≤ start'

variable {s rest name name' : List Char} {c : Char} {start : Nat}

/-! ## The name behind `include` -/

theorem named_eq_some_iff :
    nameAfter?.named rest = some name ↔ rest.takeWhile isPlain = name ∧ name ≠ [] := by
  have hplain : (fun c => c ≠ '"' && c ≠ '>') = isPlain := rfl
  rw [nameAfter?.named, hplain]
  cases rest.takeWhile isPlain with
  | nil => exact ⟨nofun, fun h => absurd h.1.symm h.2⟩
  | cons c front =>
    rw [Option.some_inj]
    exact ⟨fun h => ⟨h, h ▸ List.cons_ne_nil c front⟩, fun h => h.1⟩

theorem nameAfter?_append {blanks : List Char} {bracket : Char}
    (hblanks : ∀ c ∈ blanks, Text.isBlank c = true) (hbracket : bracket = '"' ∨ bracket = '<') :
    nameAfter? (blanks ++ bracket :: rest) = nameAfter?.named rest := by
  have hdrop : (blanks ++ bracket :: rest).dropWhile Text.isBlank = bracket :: rest := by
    rw [List.dropWhile_append_of_pos hblanks]
    rcases hbracket with rfl | rfl <;> exact List.dropWhile_cons_of_neg (by decide)
  rw [nameAfter?, hdrop]
  rcases hbracket with rfl | rfl <;> rfl

theorem nameAfter?_eq_some_iff : nameAfter? s = some name ↔ Names s name := by
  constructor
  · intro h
    have hsplit := List.takeWhile_append_dropWhile (p := Text.isBlank) (l := s)
    have hnamed : ∃ bracket rest, s.dropWhile Text.isBlank = bracket :: rest ∧
        (bracket = '"' ∨ bracket = '<') ∧ nameAfter?.named rest = some name := by
      rw [nameAfter?] at h
      split at h
      · next rest hdrop => exact ⟨_, rest, hdrop, .inl rfl, h⟩
      · next rest hdrop => exact ⟨_, rest, hdrop, .inr rfl, h⟩
      · cases h
    obtain ⟨bracket, rest, hdrop, hbracket, hnamed⟩ := hnamed
    obtain ⟨rfl, hne⟩ := named_eq_some_iff.mp hnamed
    refine ⟨hne, Text.mem_takeWhile, s.takeWhile Text.isBlank, bracket, rest.dropWhile isPlain, ?_,
      Text.mem_takeWhile, hbracket, Text.head?_dropWhile isPlain rest⟩
    rw [List.takeWhile_append_dropWhile, ← hdrop, hsplit]
  · rintro ⟨hne, hplain, blanks, bracket, after, rfl, hblanks, hbracket, hafter⟩
    rw [nameAfter?_append hblanks hbracket, named_eq_some_iff]
    exact ⟨Text.takeWhile_append_of_head hplain hafter, hne⟩

/-! ## The first name of a text -/

theorem opens_zero_iff : Opens s 0 name ↔
    (Text.afterStart? "\x60include".toList s).bind nameAfter? = some name := by
  rw [Option.bind_eq_some_iff]
  constructor
  · rintro ⟨before, after, hs, hlength, hnames⟩
    rw [List.length_eq_zero_iff.mp hlength] at hs
    exact ⟨after, Text.afterStart?_eq_some_iff.mpr hs, nameAfter?_eq_some_iff.mpr hnames⟩
  · rintro ⟨after, hafter, hnames⟩
    refine ⟨[], after, ?_, rfl, nameAfter?_eq_some_iff.mp hnames⟩
    rw [Text.afterStart?_eq_some_iff.mp hafter, List.nil_append]

theorem opens_succ_iff : Opens (c :: rest) (start + 1) name ↔ Opens rest start name := by
  constructor
  · rintro ⟨before, after, hs, hlength, hnames⟩
    obtain ⟨b, before, rfl⟩ := List.exists_cons_of_length_eq_add_one hlength
    exact ⟨before, after, (List.cons.inj hs).2, Nat.succ.inj hlength, hnames⟩
  · rintro ⟨before, after, rfl, rfl, hnames⟩
    exact ⟨c :: before, after, rfl, rfl, hnames⟩

theorem not_opens_nil : ¬Opens [] start name := by
  rintro ⟨before, after, hs, -⟩
  exact List.append_ne_nil_of_right_ne_nil before (List.cons_ne_nil _ _) hs.symm

/-- Where no name is opened at the front, the first one is opened behind the first character. -/
theorem firstOpens_succ_iff (h : ∀ name, ¬Opens (c :: rest) 0 name) :
    FirstOpens (c :: rest) (start + 1) name ↔ FirstOpens rest start name := by
  constructor
  · rintro ⟨hopens, hle⟩
    refine ⟨opens_succ_iff.mp hopens, fun start' name' h' => ?_⟩
    exact Nat.le_of_succ_le_succ (hle (start' + 1) name' (opens_succ_iff.mpr h'))
  · rintro ⟨hopens, hle⟩
    refine ⟨opens_succ_iff.mpr hopens, fun start' name' h' => ?_⟩
    cases start' with
    | zero => exact absurd h' (h name')
    | succ start' => exact Nat.succ_le_succ (hle start' name' (opens_succ_iff.mp h'))

/-- The name that is found is the one that is opened first. -/
theorem find?_eq_some_iff : find? s = some name ↔ ∃ start, FirstOpens s start name := by
  induction s with
  | nil => exact ⟨nofun, fun ⟨_, h⟩ => absurd h.opens not_opens_nil⟩
  | cons c rest ih =>
    rw [find?]
    cases hfront : (Text.afterStart? "\x60include".toList (c :: rest)).bind nameAfter? with
    | some front =>
      dsimp only
      rw [← hfront, ← opens_zero_iff]
      constructor
      · exact fun h => ⟨0, h, fun _ _ _ => Nat.zero_le _⟩
      · rintro ⟨start, hopens, hle⟩
        rwa [Nat.le_zero.mp (hle 0 front (opens_zero_iff.mpr hfront))] at hopens
    | none =>
      have hnone : ∀ name, ¬Opens (c :: rest) 0 name := fun name h => by
        rw [opens_zero_iff, hfront] at h
        cases h
      dsimp only
      rw [ih]
      constructor
      · exact fun ⟨start, h⟩ => ⟨start + 1, (firstOpens_succ_iff hnone).mpr h⟩
      · rintro ⟨start, h⟩
        cases start with
        | zero => exact absurd h.opens (hnone name)
        | succ start => exact ⟨start, (firstOpens_succ_iff hnone).mp h⟩

/-- Where a name is opened, one is opened first. -/
theorem Opens.exists_first (h : Opens s start name) : ∃ start name, FirstOpens s start name := by
  induction s generalizing start with
  | nil => exact absurd h not_opens_nil
  | cons c rest ih =>
    by_cases hfront : ∃ name, Opens (c :: rest) 0 name
    · obtain ⟨name, hname⟩ := hfront
      exact ⟨0, name, hname, fun _ _ _ => Nat.zero_le _⟩
    · have hnone := not_exists.mp hfront
      cases start with
      | zero => exact absurd h (hnone name)
      | succ start =>
        obtain ⟨start, name, hfirst⟩ := ih (opens_succ_iff.mp h)
        exact ⟨start + 1, name, (firstOpens_succ_iff hnone).mpr hfirst⟩

theorem find?_eq_none_iff : find? s = none ↔ ∀ start name, ¬Opens s start name := by
  constructor
  · intro hnone start name h
    obtain ⟨start, name, hfirst⟩ := h.exists_first
    rw [find?_eq_some_iff.mpr ⟨start, hfirst⟩] at hnone
    cases hnone
  · intro h
    refine Option.eq_none_iff_forall_ne_some.mpr fun name hname => ?_
    obtain ⟨start, hfirst⟩ := find?_eq_some_iff.mp hname
    exact h start name hfirst.opens

end IncludeUse

/-- An include directive: `include`, blanks, and the name of a file in quotes or angle brackets. -/
structure IncludeUse where
  /-- The number of characters in front of it. -/
  start : Nat
  blanks : List Char
  isAngled : Bool
  name : List Char

namespace IncludeUse

def opener (u : IncludeUse) : Char :=
  if u.isAngled then '<' else '"'

def closer (u : IncludeUse) : Char :=
  if u.isAngled then '>' else '"'

/-- The text of a directive, from the backtick to the closing bracket. -/
def text (u : IncludeUse) : List Char :=
  "\x60include".toList ++ (u.blanks ++ u.opener :: (u.name ++ [u.closer]))

/-- Whether a directive stands in a text. Its name ends at the first closing bracket. -/
structure StandsIn (s : List Char) (u : IncludeUse) : Prop where
  ne_nil : u.name ≠ []
  isBlank : ∀ c ∈ u.blanks, Text.isBlank c = true
  not_mem : u.closer ∉ u.name
  stands : ∃ before after, s = before ++ (u.text ++ after) ∧ before.length = u.start

/-- The columns of a directive, counted from one. -/
def Covers (u : IncludeUse) (column : Int) : Prop :=
  u.start < column ∧ column ≤ u.start + u.text.length

variable {s : List Char} {u : IncludeUse}

theorem isPlain_closer (u : IncludeUse) : isPlain u.closer = false := by
  rw [closer]
  cases u.isAngled <;> rfl

/-- A directive whose name holds no closing bracket of the other kind either opens its name. -/
theorem StandsIn.opens (h : StandsIn s u) (hplain : ∀ c ∈ u.name, isPlain c = true) :
    Opens s u.start u.name := by
  obtain ⟨before, after, rfl, hlength⟩ := h.stands
  refine ⟨before, u.blanks ++ u.opener :: (u.name ++ u.closer :: after), ?_, hlength, h.ne_nil,
    hplain, u.blanks, u.opener, u.closer :: after, rfl, h.isBlank, ?_, ?_⟩
  · unfold text
    generalize "\x60include".toList = keyword
    simp only [List.append_assoc, List.cons_append, List.nil_append]
  · rw [opener]
    cases u.isAngled
    · exact .inl rfl
    · exact .inr rfl
  · rintro c hc
    rw [← Option.some.inj hc, isPlain_closer]

end IncludeUse

namespace Diagnostic

/-- The source line that a diagnostic points at. It is empty where there is none. -/
def pointedLine (fs : FileSystem) (path : Path) (d : Diagnostic) : String :=
  let span := Range.span path ⟨d.place, d.place⟩
  ((nonzero? span.line).bind fun n => fs.sourceLine span.path n).getD ""

theorem toError_detail (fs : FileSystem) (path : Path) (d : Diagnostic) :
    (d.toError fs path .includeFile).detail =
      (IncludeUse.name? (d.pointedLine fs path)).getD (d.place.outermost.pathOr path) := by
  rw [pointedLine, toError, detail, Range.span_point]

/-- An error about an included file names the file that is opened first on the line that it points
at, and without one the file with that line; its column does not matter. So on a line with a name
it is right about a directive just if the name of that directive is opened first, and it is so
where no name is opened in front of the directive and its own holds no closing bracket. -/
theorem toError_includeFile (fs : FileSystem) (path : Path) (d : Diagnostic) :
    let e := d.toError fs path .includeFile
    let line := (d.pointedLine fs path).toList
    e.message = s!"failed to include '{e.detail}'" ∧
    (∀ start name, IncludeUse.FirstOpens line start name → e.detail = String.ofList name) ∧
    ((∀ start name, ¬IncludeUse.Opens line start name) →
      e.detail = d.place.outermost.pathOr path) ∧
    (∀ d' : Diagnostic, d'.place.outermost.pathOr path = d.place.outermost.pathOr path →
      d'.place.outermost.line = d.place.outermost.line →
      (d'.toError fs path .includeFile).detail = e.detail) ∧
    (∀ start name, IncludeUse.Opens line start name → ∀ u : IncludeUse,
      e.detail = String.ofList u.name ↔ ∃ start, IncludeUse.FirstOpens line start u.name) ∧
    ∀ u : IncludeUse, u.StandsIn line → (∀ c ∈ u.name, IncludeUse.isPlain c = true) →
      (∀ start name, IncludeUse.Opens line start name → u.start ≤ start) →
      e.detail = String.ofList u.name := by
  intro e line
  have hfirst : ∀ start name, IncludeUse.FirstOpens line start name →
      e.detail = String.ofList name := fun start name h => by
    rw [toError_detail, IncludeUse.name?, IncludeUse.find?_eq_some_iff.mpr ⟨start, h⟩,
      Option.map_some, Option.getD_some]
  refine ⟨rfl, hfirst, fun hnone => ?_, fun d' hpath hline => ?_, fun start name h u => ?_,
    fun u hu hplain hle => hfirst u.start u.name ⟨hu.opens hplain, hle⟩⟩
  · rw [toError_detail, IncludeUse.name?, IncludeUse.find?_eq_none_iff.mpr hnone, Option.map_none,
      Option.getD_none]
  · simp only [e, toError_detail, pointedLine, Range.span_point, hpath, hline]
  · obtain ⟨start, name, h⟩ := h.exists_first
    refine ⟨fun hu => ⟨start, ?_⟩, fun ⟨start, hu⟩ => hfirst start u.name hu⟩
    rw [hfirst start name h, String.ofList_inj] at hu
    exact hu ▸ h

/-- A line that names one file in a comment and includes another one. -/
def commentedFiles : FileSystem where
  current := ["w"]
  entries := [(["w", "a.sv"],
    .file "/* `include \"a.svh\" */ `include \"b.svh\"\nmodule m; endmodule\n".toUTF8.toList)]

/-- The error about the missing file `b.svh` lies on the directive that includes it, and names
`a.svh`. -/
theorem includeFile_names_comment :
    let path : Path := ⟨.relative, ["a.sv"]⟩
    let u : IncludeUse := ⟨23, [' '], false, "b.svh".toList⟩
    ∃ tree d e, Verilog.reader commentedFiles ⟨path, [], []⟩ = .ok (tree, [d]) ∧
      d.kind = .includeFile ∧ u.StandsIn (d.pointedLine commentedFiles path).toList ∧
      u.Covers d.place.outermost.column ∧
      ParsedSource.read commentedFiles (Verilog.reader commentedFiles) path ∅ [] false =
        .error (.error e) ∧ e.detail = "a.svh" ∧ e.detail ≠ String.ofList u.name := by
  intro path u
  let d : Diagnostic := ⟨"DiagCode(CouldNotOpenIncludeFile)",
    "a.sv:1:33: error: could not find or open include file 'b.svh'\n/* `include \"a.svh\" */ `include \"b.svh\"\n",
    true, .text none 32 1 33⟩
  have hdiagnostics : (Verilog.reader commentedFiles ⟨path, [], []⟩).toOption.map (·.2) = some [d] := by
    decide +kernel
  have hparse : ∃ tree, Verilog.reader commentedFiles ⟨path, [], []⟩ = .ok (tree, [d]) := by
    cases hread : Verilog.reader commentedFiles ⟨path, [], []⟩ with
    | error fault => rw [hread] at hdiagnostics; cases hdiagnostics
    | ok answer =>
      rw [hread] at hdiagnostics
      exact ⟨answer.1, congrArg Except.ok (Prod.ext rfl (Option.some.inj hdiagnostics))⟩
  obtain ⟨tree, hparse⟩ := hparse
  have hstands : u.StandsIn (d.pointedLine commentedFiles path).toList := by
    refine ⟨by decide, List.forall_mem_singleton.mpr rfl, by decide,
      "/* `include \"a.svh\" */ ".toList, [], ?_, by decide +kernel⟩
    decide +kernel
  have hkind : d.kind = .includeFile := by decide +kernel
  have hdetail : (d.toError commentedFiles path .includeFile).detail = "a.svh" := by decide +kernel
  refine ⟨tree, d, d.toError commentedFiles path .includeFile, hparse, hkind, hstands,
    ⟨by decide +kernel, by decide +kernel⟩, ?_, hdetail, ?_⟩
  · rw [ParsedSource.read_eq rfl hparse, List.find?_cons_of_pos (by decide +kernel),
      ParsedSource.settle, hkind]
  · rw [hdetail]
    decide +kernel

end Diagnostic

end HdlLint
