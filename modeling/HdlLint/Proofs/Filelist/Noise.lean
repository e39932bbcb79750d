import HdlLint.Proofs.Environment.Expansion
import HdlLint.Proofs.Filelist.Merge
import HdlLint.Proofs.Text.Lines
import HdlLint.Proofs.Text.Occurs
import HdlLint.Proofs.Text.Strip
import Mathlib.Logic.Relation

/-!
# Noise in filelists

Blank lines, comments and options of other tools mean nothing (`FilelistLine.read_eq_noise_iff`).
Lines become noisier by more such lines, by blanks around them, and by empty segments
(`NoiseStep`, `NoisierLines`). That changes nothing of what the lines mean
(`NoiseStep.significant_eq`), not even where the blanks end lines (`significant_joinLines`), so a
noisier text adds the same to a filelist (`NoisierText.addLines_eq`).
-/

namespace HdlLint

theorem Text.isLine_strip {s : List Char} (h : IsLine s) : IsLine (strip s) := by
  obtain ⟨x, y, hs, -, -⟩ := exists_strip s
  exact fun c hc => h c (hs ▸ List.mem_append_right x (List.mem_append_left y hc))

namespace FilelistLine

/-- A line as it is classified: without the blanks around it, and with its references replaced. -/
def expanded (env : Environment) (line : List Char) : List Char :=
  env.expandChars (Text.strip line)

/-- Whether a line means nothing. -/
inductive IsNoise (env : Environment) (line : List Char) : Prop
  | blank (h : ∀ c ∈ line, Text.isBlank c = true)
  | comment (h : "//".toList <+: Text.strip line)
  /-- An option of another tool. -/
  | option (hsign : ['+'] <+: expanded env line ∨ ['-'] <+: expanded env line)
      (hincludes : ¬"+incdir+".toList <+: expanded env line)
      (hdefines : ¬"+define+".toList <+: expanded env line)
      (hnested : ¬"-f ".toList <+: expanded env line)

variable {env : Environment} {line : List Char}

/-- An expanded line means nothing if it starts with a sign and is none of the options that are
known. -/
theorem ofExpanded_eq_noise_iff {e : List Char} : ofExpanded e = .noise ↔
    (['+'] <+: e ∨ ['-'] <+: e) ∧ ¬"+incdir+".toList <+: e ∧ ¬"+define+".toList <+: e ∧
      ¬"-f ".toList <+: e := by
  simp only [← Text.afterStart?_eq_none_iff]
  unfold ofExpanded
  cases Text.afterStart? "+incdir+".toList e with
  | some rest => exact ⟨nofun, fun h => nomatch h.2.1⟩
  | none =>
  cases Text.afterStart? "+define+".toList e with
  | some rest => exact ⟨nofun, fun h => nomatch h.2.2.1⟩
  | none =>
  cases Text.afterStart? "-f ".toList e with
  | some rest => exact ⟨nofun, fun h => nomatch h.2.2.2⟩
  | none =>
  simp only [and_true]
  split
  · simp
  · simp
  · next hplus hminus =>
    refine ⟨nofun, fun h => ?_⟩
    rcases h with ⟨rest, rfl⟩ | ⟨rest, rfl⟩
    · exact absurd rfl (hplus rest)
    · exact absurd rfl (hminus rest)

/-- A line whose expansion does not start with a slash is no comment. -/
theorem read_of_expanded {c : Char} {rest : List Char} (h : expanded env line = c :: rest)
    (hc : c ≠ '/') : read env line = ofExpanded (expanded env line) := by
  rw [expanded] at h ⊢
  rw [read]
  split
  · next hnil => rw [hnil, Environment.expandChars] at h; cases h
  · next s hslash =>
    rw [hslash, Environment.expandChars_plain env (Environment.not_text_prefix_of_ne (by decide) _)] at h
    exact absurd (List.cons.inj h).1.symm hc
  · rfl

/-- The lines without meaning are blank lines, comments and options of other tools. -/
theorem read_eq_noise_iff : read env line = .noise ↔ IsNoise env line := by
  constructor
  · intro h
    rw [read] at h
    split at h
    · next hnil => exact .blank (Text.strip_eq_nil_iff.mp hnil)
    · next rest hslash => exact .comment ⟨rest, hslash.symm⟩
    · obtain ⟨hsign, hincludes, hdefines, hnested⟩ := ofExpanded_eq_noise_iff.mp h
      exact .option hsign hincludes hdefines hnested
  · intro h
    cases h with
    | blank h => rw [read, Text.strip_eq_nil_iff.mpr h]
    | comment h =>
      obtain ⟨rest, hrest⟩ := h
      rw [read, ← hrest]
      rfl
    | option hsign hincludes hdefines hnested =>
      have hnoise := ofExpanded_eq_noise_iff.mpr ⟨hsign, hincludes, hdefines, hnested⟩
      rcases hsign with ⟨rest, hrest⟩ | ⟨rest, hrest⟩ <;>
        rw [read_of_expanded hrest.symm (by decide), hnoise]

/-- Blanks around a line do not matter. -/
theorem read_congr {line' : List Char} (h : Text.strip line = Text.strip line') :
    read env line = read env line' := by
  rw [read, read, h]

/-! ## Segments -/

theorem segments_intercalate (parts : List (List Char)) :
    segments (['+'].intercalate parts) = parts.flatMap segments := by
  induction parts with
  | nil => rfl
  | cons part parts ih =>
    cases parts with
    | nil => simp
    | cons part' parts =>
      rw [List.intercalate_cons_cons, List.flatMap_cons, ← ih, segments, List.append_assoc,
        List.singleton_append, Text.splitOn_append_cons, List.filter_append]
      rfl

theorem ofExpanded_includes (rest : List Char) : ofExpanded ("+incdir+".toList ++ rest) =
    .includes ((segments rest).map fun s => Path.ofString (String.ofList s)) :=
  rfl

theorem ofExpanded_defines (rest : List Char) :
    ofExpanded ("+define+".toList ++ rest) = .defines ((segments rest).map Define.ofItem) :=
  rfl

/-- An empty segment more does not matter. -/
theorem read_emptySegment {line' start : List Char} {parts parts' : List (List Char)}
    (hstart : start = "+incdir+".toList ∨ start = "+define+".toList)
    (h : expanded env line = start ++ ['+'].intercalate (parts ++ parts'))
    (h' : expanded env line' = start ++ ['+'].intercalate (parts ++ [] :: parts')) :
    read env line' = read env line := by
  have hsame : segments (['+'].intercalate (parts ++ [] :: parts')) =
      segments (['+'].intercalate (parts ++ parts')) := by
    simp only [segments_intercalate, List.flatMap_append, List.flatMap_cons]
    rfl
  rcases hstart with rfl | rfl
  · rw [read_of_expanded h' (by decide), read_of_expanded h (by decide), h, h', ofExpanded_includes,
      ofExpanded_includes, hsame]
  · rw [read_of_expanded h' (by decide), read_of_expanded h (by decide), h, h', ofExpanded_defines,
      ofExpanded_defines, hsame]

end FilelistLine

namespace Filelist

open FilelistLine (IsNoise expanded)

/-- One line without meaning more, blanks more around a line, or an empty segment more. -/
inductive NoiseStep (env : Environment) : List (List Char) → List (List Char) → Prop
  | insert {line : List Char} (before after : List (List Char)) (hline : Text.IsLine line)
      (h : IsNoise env line) : NoiseStep env (before ++ after) (before ++ line :: after)
  | pad {line x y : List Char} (before after : List (List Char))
      (hx : ∀ c ∈ x, Text.isBlank c = true) (hy : ∀ c ∈ y, Text.isBlank c = true) :
      NoiseStep env (before ++ line :: after) (before ++ (x ++ (line ++ y)) :: after)
  | segment {line line' start : List Char} {parts parts' : List (List Char)}
      (before after : List (List Char)) (hline : Text.IsLine line')
      (hstart : start = "+incdir+".toList ∨ start = "+define+".toList)
      (h : expanded env line = start ++ ['+'].intercalate (parts ++ parts'))
      (h' : expanded env line' = start ++ ['+'].intercalate (parts ++ [] :: parts')) :
      NoiseStep env (before ++ line :: after) (before ++ line' :: after)

/-- Any number of such changes. -/
def NoisierLines (env : Environment) : List (List Char) → List (List Char) → Prop :=
  Relation.ReflTransGen (NoiseStep env)

/-- What the lines with a meaning mean. -/
def significant (env : Environment) (lines : List (List Char)) : List FilelistLine :=
  (lines.map (FilelistLine.read env)).filter (· ≠ .noise)

variable {env : Environment} {line line' : List Char} {lines lines' : List (List Char)}

theorem significant_append (lines lines' : List (List Char)) :
    significant env (lines ++ lines') = significant env lines ++ significant env lines' := by
  rw [significant, List.map_append, List.filter_append]
  rfl

theorem significant_cons (line : List Char) (lines : List (List Char)) :
    significant env (line :: lines) = significant env [line] ++ significant env lines :=
  significant_append [line] lines

theorem significant_cons_congr (h : FilelistLine.read env line = FilelistLine.read env line')
    (hlines : significant env lines = significant env lines') :
    significant env (line :: lines) = significant env (line' :: lines') := by
  have hline : significant env [line] = significant env [line'] := by
    rw [significant, significant, List.map_singleton, List.map_singleton, h]
  rw [significant_cons, significant_cons line', hline, hlines]

theorem significant_noise (h : IsNoise env line) : significant env [line] = [] := by
  rw [significant, List.map_singleton, FilelistLine.read_eq_noise_iff.mpr h]
  rfl

theorem significant_nil_cons (lines : List (List Char)) :
    significant env ([] :: lines) = significant env lines := by
  rw [significant_cons, significant_noise (.blank (List.forall_mem_nil _)), List.nil_append]

/-! ## Lines -/

/-- Noise changes nothing of what the lines mean. -/
theorem NoiseStep.significant_eq (h : NoiseStep env lines lines') :
    significant env lines' = significant env lines := by
  cases h with
  | insert before after _ hnoise =>
    rw [significant_append, significant_cons, significant_noise hnoise, List.nil_append,
      significant_append]
  | pad before after hx hy =>
    rw [significant_append, significant_append,
      significant_cons_congr (FilelistLine.read_congr (Text.strip_pad hx hy _)) rfl]
  | segment before after _ hstart hparts hparts' =>
    rw [significant_append, significant_append,
      significant_cons_congr (FilelistLine.read_emptySegment hstart hparts hparts') rfl]

/-- No line holds a line end, but for the blanks around it. -/
def AreLines (lines : List (List Char)) : Prop :=
  ∀ line ∈ lines, Text.IsLine (Text.strip line)

theorem areLines_of_isLine (h : ∀ line ∈ lines, Text.IsLine line) : AreLines lines :=
  fun line hline => Text.isLine_strip (h line hline)

theorem NoiseStep.areLines (h : NoiseStep env lines lines') (hlines : AreLines lines) :
    AreLines lines' := by
  cases h with
  | insert before after hline _ =>
    obtain ⟨hbefore, hafter⟩ := List.forall_mem_append.mp hlines
    exact List.forall_mem_append.mpr
      ⟨hbefore, List.forall_mem_cons.mpr ⟨Text.isLine_strip hline, hafter⟩⟩
  | pad before after hx hy =>
    obtain ⟨hbefore, hrest⟩ := List.forall_mem_append.mp hlines
    obtain ⟨hold, hafter⟩ := List.forall_mem_cons.mp hrest
    rw [← Text.strip_pad hx hy] at hold
    exact List.forall_mem_append.mpr ⟨hbefore, List.forall_mem_cons.mpr ⟨hold, hafter⟩⟩
  | segment before after hline _ _ _ =>
    obtain ⟨hbefore, hrest⟩ := List.forall_mem_append.mp hlines
    exact List.forall_mem_append.mpr ⟨hbefore,
      List.forall_mem_cons.mpr ⟨Text.isLine_strip hline, (List.forall_mem_cons.mp hrest).2⟩⟩

theorem NoisierLines.significant_eq (h : NoisierLines env lines lines') :
    significant env lines' = significant env lines := by
  induction h with
  | refl => rfl
  | tail _ hstep ih => rw [hstep.significant_eq, ih]

theorem NoisierLines.areLines (h : NoisierLines env lines lines') (hlines : AreLines lines) :
    AreLines lines' := by
  induction h with
  | refl => exact hlines
  | tail _ hstep ih => exact hstep.areLines ih

/-! ## Texts -/

/-- A blank in front of a text does not matter, not even one that ends a line. -/
theorem significant_blank_cons {c : Char} (hc : Text.isBlank c = true) (s : List Char) :
    significant env (Text.splitLines (c :: s)) = significant env (Text.splitLines s) := by
  cases hend : Text.isLineEnd c with
  | true =>
    obtain ⟨lines, hcut, hs | hs⟩ := Text.splitLines_lineEnd hend s
    · rw [hcut, significant_nil_cons, hs]
    · rw [hcut, hs]
  | false =>
    rw [Text.splitLines_cons hend]
    cases Text.splitLines s with
    | nil => exact significant_noise (.blank (List.forall_mem_singleton.mpr hc))
    | cons line lines =>
      have hstrip : Text.strip (c :: line) = Text.strip line := by
        have hpad := Text.strip_pad (x := [c]) (y := []) (List.forall_mem_singleton.mpr hc) nofun line
        rwa [List.append_nil] at hpad
      exact significant_cons_congr (FilelistLine.read_congr hstrip) rfl

theorem significant_blanks_append {x : List Char} (hx : ∀ c ∈ x, Text.isBlank c = true)
    (s : List Char) :
    significant env (Text.splitLines (x ++ s)) = significant env (Text.splitLines s) := by
  induction x with
  | nil => rfl
  | cons c x ih =>
    obtain ⟨hc, hx⟩ := List.forall_mem_cons.mp hx
    rw [List.cons_append, significant_blank_cons hc, ih hx]

/-- Blanks behind a line do not matter, not even those that end it. -/
theorem significant_line_blanks {y : List Char} (hline : Text.IsLine line)
    (hy : ∀ c ∈ y, Text.isBlank c = true) (rest : List Char) :
    significant env (Text.splitLines (line ++ (y ++ '\n' :: rest))) =
      significant env (line :: Text.splitLines rest) := by
  induction y generalizing line with
  | nil => rw [List.nil_append, Text.splitLines_append hline]
  | cons c y ih =>
    have hblanks := hy
    obtain ⟨hc, hy⟩ := List.forall_mem_cons.mp hy
    cases hend : Text.isLineEnd c with
    | true =>
      obtain ⟨lines, hcut, -⟩ := Text.splitLines_lineEnd hend (y ++ '\n' :: rest)
      have hlines : significant env lines = significant env (Text.splitLines rest) := by
        rw [← significant_nil_cons, ← hcut, ← List.cons_append, significant_blanks_append hblanks,
          significant_blank_cons rfl]
      rw [List.cons_append, Text.splitLines_append_of_cons hline hcut, List.append_nil,
        significant_cons_congr rfl hlines]
    | false =>
      have hlonger : Text.IsLine (line ++ [c]) :=
        List.forall_mem_append.mpr ⟨hline, List.forall_mem_singleton.mpr hend⟩
      have hstrip : Text.strip (line ++ [c]) = Text.strip line :=
        Text.strip_pad (x := []) nofun (List.forall_mem_singleton.mpr hc) line
      have hsplit : line ++ (c :: y ++ '\n' :: rest) = line ++ [c] ++ (y ++ '\n' :: rest) := by
        rw [List.append_assoc]
        rfl
      rw [hsplit, ih hlonger hy, significant_cons_congr (FilelistLine.read_congr hstrip) rfl]

/-- Written one below the other, lines mean the same, whatever blanks stand around them. -/
theorem significant_joinLines (h : AreLines lines) :
    significant env (Text.splitLines (Text.joinLines lines)) = significant env lines := by
  induction lines with
  | nil => rfl
  | cons line lines ih =>
    obtain ⟨hline, hlines⟩ := List.forall_mem_cons.mp h
    obtain ⟨x, y, hparts, hx, hy⟩ := Text.exists_strip line
    have hsplit : line ++ '\n' :: Text.joinLines lines =
        x ++ (Text.strip line ++ (y ++ '\n' :: Text.joinLines lines)) := by
      conv => lhs; rw [hparts]
      simp only [List.append_assoc]
    rw [Text.joinLines_cons, hsplit, significant_blanks_append hx, significant_line_blanks hline hy]
    exact significant_cons_congr (FilelistLine.read_congr (Text.strip_strip line)) (ih hlines)

/-- Whether a text consists of the lines of another one with noise: these are written one below the
other, with any line ends. -/
def NoisierText (env : Environment) (text text' : List Char) : Prop :=
  ∃ lines, NoisierLines env (Text.splitLines text) lines ∧
    Text.splitLines text' = Text.splitLines (Text.joinLines lines)

theorem NoisierText.significant_eq {text text' : List Char} (h : NoisierText env text text') :
    significant env (Text.splitLines text') = significant env (Text.splitLines text) := by
  obtain ⟨lines, hlines, htext⟩ := h
  have hare := hlines.areLines (areLines_of_isLine (Text.isLine_of_mem_splitLines text))
  rw [htext, significant_joinLines hare, hlines.significant_eq]

/-! ## Filelists -/

/-- Lines without meaning add nothing. -/
theorem addLines_eq_significant (resolve : Path → Except FilelistFault Filelist) (a : Filelist)
    (lines : List (List Char)) :
    addLines resolve a (lines.map (FilelistLine.read env)) =
      addLines resolve a (significant env lines) := by
  induction lines generalizing a with
  | nil => rfl
  | cons line lines ih =>
    rw [List.map_cons, addLines_cons, significant_cons, addLines_append]
    by_cases hnoise : FilelistLine.read env line = .noise
    · rw [significant_noise (FilelistLine.read_eq_noise_iff.mp hnoise), hnoise]
      exact ih a
    · have hone : significant env [line] = [FilelistLine.read env line] :=
        List.filter_cons_of_pos (decide_eq_true hnoise)
      rw [hone, addLines_cons]
      cases addLine resolve a (FilelistLine.read env line) with
      | error fault => rfl
      | ok b => exact ih b

/-- A noisier text adds what the text adds. -/
theorem NoisierText.addLines_eq {text text' : List Char} (h : NoisierText env text text')
    (resolve : Path → Except FilelistFault Filelist) (a : Filelist) :
    addLines resolve a (linesOf env (FileSystem.newlines text')) =
      addLines resolve a (linesOf env (FileSystem.newlines text)) := by
  rw [linesOf, linesOf, FileSystem.splitLines_newlines, FileSystem.splitLines_newlines,
    addLines_eq_significant, addLines_eq_significant, h.significant_eq]

end Filelist

end HdlLint
