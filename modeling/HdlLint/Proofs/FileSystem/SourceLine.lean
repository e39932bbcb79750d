import HdlLint.Proofs.FileSystem.Name
import HdlLint.Proofs.Text.Replacement
import HdlLint.Proofs.Text.SourceLines

/-!
# Lines of source files by their numbers

A file that can be opened shows as one text, which falls into lines in one way, and the number of a
line is its place among them, counted from one (`lineAt?_eq_some_iff`). `readSourceLine_numbered` puts
it together. Where a file cannot be opened there are no lines, with one exception: a path with a null
character is an error (`readSourceLine_nul_raises`).
-/

namespace HdlLint.FileSystem

variable {fs : FileSystem} {path : String}

/-! ## Numbers of lines -/

theorem lineAt?_eq_some_iff {lines : List (List Char)} {number : Int} {line : List Char} :
    lineAt? lines number = some line ↔
      ∃ before after, lines = before ++ line :: after ∧ number = before.length + 1 := by
  rw [lineAt?]
  constructor
  · intro h
    split at h
    · cases h
    · obtain ⟨hlt, hget⟩ := List.getElem?_eq_some_iff.mp h
      refine ⟨lines.take (number - 1).toNat, lines.drop ((number - 1).toNat + 1), ?_, ?_⟩
      · rw [← hget, List.getElem_cons_drop, List.take_append_drop]
      · rw [List.length_take]
        omega
  · rintro ⟨before, after, rfl, rfl⟩
    rw [if_neg (by omega), Int.add_sub_cancel, Int.toNat_natCast]
    simp

theorem lineAt?_eq_none_iff {lines : List (List Char)} {number : Int} :
    lineAt? lines number = none ↔ number < 1 ∨ lines.length < number := by
  rw [lineAt?]
  split
  · simp [*]
  · rw [List.getElem?_eq_none_iff]
    omega

/-! ## Opening -/

theorem openBytes_eq_nul_iff : fs.openBytes path = .error .nulInName ↔ '\x00' ∈ path.toList := by
  rw [← Path.hasNul_ofString_iff, ← @read_eq_nul_iff fs, openBytes]
  cases fs.read (Path.ofString path) with
  | error fault => simp
  | ok bytes =>
    simp only
    split <;> simp

theorem readSourceLine_of_unopened {fault : FileFault} (h : fs.openBytes path = .error fault)
    (hnul : fault ≠ .nulInName) (number : Int) : fs.readSourceLine path number = .ok none := by
  rw [readSourceLine, h]
  cases fault with
  | nulInName => exact absurd rfl hnul
  | _ => rfl

theorem readSourceLine_of_nul (h : '\x00' ∈ path.toList) (number : Int) :
    fs.readSourceLine path number = .error .nulInName := by
  rw [readSourceLine, openBytes_eq_nul_iff.mpr h]

theorem readSourceLine_of_opened {bytes : List UInt8} (h : fs.openBytes path = .ok bytes)
    (number : Int) : fs.readSourceLine path number =
      .ok ((lineAt? (Text.sourceLines (Text.decodeLossy bytes)) number).map String.ofList) := by
  rw [readSourceLine, h]

theorem readSourceLine_eq_error_iff {number : Int} {fault : FileFault} :
    fs.readSourceLine path number = .error fault ↔ fault = .nulInName ∧ '\x00' ∈ path.toList := by
  constructor
  · intro h
    cases hopen : fs.openBytes path with
    | ok bytes =>
      rw [readSourceLine_of_opened hopen] at h
      cases h
    | error cause =>
      by_cases hnul : cause = .nulInName
      · subst hnul
        rw [readSourceLine, hopen] at h
        exact ⟨(Except.error.inj h).symm, openBytes_eq_nul_iff.mp hopen⟩
      · rw [readSourceLine_of_unopened hopen hnul] at h
        cases h
  · rintro ⟨rfl, h⟩
    exact readSourceLine_of_nul h number

theorem readSourceLine_eq_some_iff {bytes : List UInt8} (h : fs.openBytes path = .ok bytes)
    {number : Int} {line : String} : fs.readSourceLine path number = .ok (some line) ↔
      ∃ before after, Text.sourceLines (Text.decodeLossy bytes) = before ++ line.toList :: after ∧
        number = before.length + 1 := by
  rw [← lineAt?_eq_some_iff, readSourceLine_of_opened h, Except.ok.injEq, Option.map_eq_some_iff]
  constructor
  · rintro ⟨chars, hchars, rfl⟩
    rw [hchars, String.toList_ofList]
  · exact fun hchars => ⟨line.toList, hchars, String.ofList_toList⟩

theorem readSourceLine_eq_none_iff {bytes : List UInt8} (h : fs.openBytes path = .ok bytes)
    {number : Int} : fs.readSourceLine path number = .ok none ↔
      number < 1 ∨ (Text.sourceLines (Text.decodeLossy bytes)).length < number := by
  rw [← lineAt?_eq_none_iff, readSourceLine_of_opened h, Except.ok.injEq, Option.map_eq_none_iff]

/-- The lines of a source file by their numbers. A path with a null character is an error, and there
is no other; any other file that cannot be opened has no lines. The bytes of a file show as one text,
which falls into lines in one way: a number stands for the line at its place, counted from one, and
for none below and behind them. No line holds a line end, and joined by single line feeds they are the
text with line feeds for its ends, but for an end of the last line. -/
theorem readSourceLine_numbered (fs : FileSystem) (path : String) :
    (∀ number fault, fs.readSourceLine path number = .error fault ↔
      fault = .nulInName ∧ '\x00' ∈ path.toList) ∧
    (∀ fault, fs.openBytes path = .error fault → '\x00' ∉ path.toList →
      ∀ number, fs.readSourceLine path number = .ok none) ∧
    ∀ bytes, fs.openBytes path = .ok bytes → ∃ text lines,
      (∀ text', Text.Shows bytes text' ↔ text' = text) ∧
      (∀ lines', Text.FallsInto text lines' ↔ lines' = lines) ∧
      (∀ number line, fs.readSourceLine path number = .ok (some line) ↔
        ∃ before after, lines = before ++ line.toList :: after ∧ number = before.length + 1) ∧
      (∀ number, fs.readSourceLine path number = .ok none ↔ number < 1 ∨ lines.length < number) ∧
      (∀ number line, fs.readSourceLine path number = .ok (some line) →
        '\n' ∉ line.toList ∧ '\r' ∉ line.toList) ∧
      newlines text = ['\n'].intercalate lines ++ if Text.endsLine text then ['\n'] else [] := by
  refine ⟨fun _ _ => readSourceLine_eq_error_iff, fun fault hopen hnul => ?_, fun bytes hopen => ?_⟩
  · refine readSourceLine_of_unopened hopen fun hfault => hnul ?_
    exact openBytes_eq_nul_iff.mp (hfault ▸ hopen)
  · have hlines := Text.fallsInto_sourceLines (Text.decodeLossy bytes)
    refine ⟨_, _, fun _ => Text.shows_iff, fun _ => Text.fallsInto_iff,
      fun _ _ => readSourceLine_eq_some_iff hopen, fun _ => readSourceLine_eq_none_iff hopen,
      fun number line h => ?_, hlines.newlines_eq⟩
    obtain ⟨before, after, heq, -⟩ := (readSourceLine_eq_some_iff hopen).mp h
    exact hlines.isSourceLine _ (heq ▸ List.mem_append_right before List.mem_cons_self)

/-- A file with all kinds of line ends, bytes that are no UTF-8, and no end of its last line. -/
def mixedSample : FileSystem :=
  { current := ["w"]
    entries := [(["w", "a.sv"], .file [0x61, 0x0d, 0x0d, 0x0a, 0xe2, 0x82, 0x0a, 0xff, 0x62])] }

theorem readSourceLine_numbered_mixed :
    mixedSample.openBytes "a.sv" =
      .ok [0x61, 0x0d, 0x0d, 0x0a, 0xe2, 0x82, 0x0a, 0xff, 0x62] ∧
    mixedSample.readSourceLine "a.sv" 1 = .ok (some "a") ∧
    mixedSample.readSourceLine "a.sv" 2 = .ok (some "") ∧
    mixedSample.readSourceLine "a.sv" 3 = .ok (some "\ufffd") ∧
    mixedSample.readSourceLine "a.sv" 4 = .ok (some "\ufffdb") ∧
    mixedSample.readSourceLine "a.sv" 5 = .ok none ∧
    mixedSample.openBytes "b.sv" = .error .notFound ∧
    mixedSample.readSourceLine "b.sv" 1 = .ok none := by
  have hopen : mixedSample.openBytes "a.sv" =
      .ok [0x61, 0x0d, 0x0d, 0x0a, 0xe2, 0x82, 0x0a, 0xff, 0x62] := rfl
  have hmissing : mixedSample.openBytes "b.sv" = .error .notFound := rfl
  obtain ⟨text, lines, htext, hlines, hsome, hnone, -⟩ :=
    (readSourceLine_numbered mixedSample "a.sv").2.2 _ hopen
  obtain rfl : "a\r\r\n\ufffd\n\ufffdb".toList = text :=
    (htext _).mp (Text.shows_iff.mpr (by decide +kernel))
  obtain rfl : ["a".toList, [], "\ufffd".toList, "\ufffdb".toList] = lines :=
    (hlines _).mp (Text.fallsInto_iff.mpr (by decide +kernel))
  refine ⟨hopen, ?_, ?_, ?_, ?_, ?_, hmissing, ?_⟩
  · exact (hsome 1 "a").mpr ⟨[], [[], "\ufffd".toList, "\ufffdb".toList], rfl, rfl⟩
  · exact (hsome 2 "").mpr ⟨["a".toList], ["\ufffd".toList, "\ufffdb".toList], rfl, rfl⟩
  · exact (hsome 3 "\ufffd").mpr ⟨["a".toList, []], ["\ufffdb".toList], rfl, rfl⟩
  · exact (hsome 4 "\ufffdb").mpr ⟨["a".toList, [], "\ufffd".toList], [], rfl, rfl⟩
  · exact (hnone 5).mpr (.inr (by decide))
  · exact (readSourceLine_numbered mixedSample "b.sv").2.1 _ hmissing (by decide) 1

/-- A path that names no file is an error, where a missing file has no lines. -/
theorem readSourceLine_nul_raises :
    mixedSample.openBytes "a\x00.sv" = .error .nulInName ∧
      mixedSample.readSourceLine "a\x00.sv" 1 ≠ .ok none := by
  have hnul : '\x00' ∈ "a\x00.sv".toList := by decide
  exact ⟨openBytes_eq_nul_iff.mpr hnul, by rw [readSourceLine_of_nul hnul]; exact nofun⟩

end HdlLint.FileSystem
