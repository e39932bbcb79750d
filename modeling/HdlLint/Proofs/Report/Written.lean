import HdlLint.Report

/-!
# What is written of reports

The text of a run is that of the reports that are written, one behind the other (`write_eq`), and
each of them starts with the label of its kind (`exists_text_eq`). Which reports are written depends
on the verbosity alone: a silent run writes what the others write but for the diagnostics
(`written_of_silent`).
-/

namespace HdlLint.Report

/-- Whether a report tells of a broken rule or an error, and not of a file that passed. -/
def isDiagnostic : Report → Bool
  | .broken _ => true
  | .unparsed _ => true
  | .passed _ => false

/-- What the text of a report starts with. -/
def label : Report → String
  | .broken _ => "Fail: "
  | .unparsed _ => "Error: "
  | .passed _ => "Info: pass "

/-- The text of a report. -/
def text (fs : FileSystem) (single : Bool) (r : Report) : String :=
  Text.ofLines (r.lines fs single)

/-- The reports that are written, in order. -/
def written (v : Verbosity) (reports : List Report) : List Report :=
  reports.filter (isWritten v)

theorem isWritten_eq (v : Verbosity) (r : Report) :
    isWritten v r = if r.isDiagnostic then !v.silent else v.verbose := by
  cases r <;> rfl

/-! ## Texts -/

theorem ofLines_append (lines rest : List String) :
    Text.ofLines (lines ++ rest) = Text.ofLines lines ++ Text.ofLines rest := by
  rw [Text.ofLines, List.map_append, String.join_append]
  rfl

theorem ofLines_cons (line : String) (rest : List String) :
    Text.ofLines (line :: rest) = line ++ ("\n" ++ Text.ofLines rest) := by
  rw [← List.singleton_append, ofLines_append, ← String.append_assoc]
  refine congrArg (· ++ Text.ofLines rest) ?_
  simp [Text.ofLines, String.join]

theorem write_eq (fs : FileSystem) (v : Verbosity) (reports : List Report) :
    write fs v reports = String.join ((written v reports).map (text fs v.single)) := by
  rw [write, written]
  induction reports.filter (isWritten v) with
  | nil => rfl
  | cons r rs ih =>
    rw [List.flatMap_cons, ofLines_append, ih, List.map_cons, String.join_cons]
    rfl

/-- What an error is told with starts with its label, however much is told. -/
theorem exists_errorLines_eq (fs : FileSystem) (single : Bool) (e : SourceError) :
    ∃ line rest, errorLines fs single e = line :: rest ∧ "Error: ".toList <+: line.toList := by
  have hline : ∀ message, "Error: ".toList <+: (errorLine message).toList := fun message => by
    rw [errorLine, String.toList_append]
    exact List.prefix_append _ _
  rw [errorLines]
  split
  · split
    · refine ⟨_, [], rfl, ?_⟩
      simp only [String.toList_append, List.append_assoc]
      exact List.prefix_append _ _
    · exact ⟨_, _, rfl, by decide⟩
  · exact ⟨_, [], rfl, hline _⟩

/-- The first line of a report starts with its label. -/
theorem exists_lines_eq (fs : FileSystem) (single : Bool) (r : Report) :
    ∃ line rest, r.lines fs single = line :: rest ∧ r.label.toList <+: line.toList := by
  cases r with
  | broken f =>
    cases single with
    | true =>
      refine ⟨_, [], rfl, ?_⟩
      simp only [label, String.toList_append, List.append_assoc]
      exact List.prefix_append _ _
    | false =>
      refine ⟨_, _, rfl, ?_⟩
      simp only [label, String.toList_append]
      exact List.prefix_append _ _
  | unparsed e => exact exists_errorLines_eq fs single e
  | passed path =>
    refine ⟨_, [], rfl, ?_⟩
    simp only [label, infoLine, String.toList_append]
    exact ⟨_, rfl⟩

/-- The text of a report starts with its label. -/
theorem exists_text_eq (fs : FileSystem) (single : Bool) (r : Report) :
    ∃ rest, r.text fs single = r.label ++ rest := by
  obtain ⟨line, rest, hlines, message, hmessage⟩ := exists_lines_eq fs single r
  have hline : line = r.label ++ String.ofList message := by
    rw [← String.toList_inj, String.toList_append, String.toList_ofList, hmessage]
  exact ⟨String.ofList message ++ ("\n" ++ Text.ofLines rest), by
    rw [text, hlines, ofLines_cons, hline, String.append_assoc]⟩

/-! ## Verbosity -/

/-- A silent run writes what another one writes but for the diagnostics. -/
theorem written_of_silent {v : Verbosity} (hsilent : v.silent = true) (reports : List Report) :
    written v reports =
      (written { v with silent := false } reports).filter fun r => !r.isDiagnostic := by
  rw [written, written, List.filter_filter]
  refine List.filter_congr fun r _ => ?_
  rw [isWritten_eq, isWritten_eq, hsilent]
  cases r.isDiagnostic <;> simp

/-- All diagnostics are written unless the run is silent. -/
theorem filter_isDiagnostic_written {v : Verbosity} (hsilent : v.silent = false)
    (reports : List Report) :
    (written v reports).filter isDiagnostic = reports.filter isDiagnostic := by
  rw [written, List.filter_filter]
  refine List.filter_congr fun r _ => ?_
  rw [isWritten_eq, hsilent]
  cases r.isDiagnostic <;> simp

theorem any_isDiagnostic_written {v : Verbosity} (hsilent : v.silent = false)
    (reports : List Report) :
    (written v reports).any isDiagnostic = reports.any isDiagnostic := by
  rw [written, List.any_filter]
  refine congrArg reports.any (funext fun r => ?_)
  rw [isWritten_eq, hsilent]
  cases r.isDiagnostic <;> simp

/-- The files that passed are written about if the run is verbose. -/
theorem filter_not_isDiagnostic_written (v : Verbosity) (reports : List Report) :
    (written v reports).filter (fun r => !r.isDiagnostic) =
      if v.verbose then reports.filter (fun r => !r.isDiagnostic) else [] := by
  rw [written, List.filter_filter]
  cases hv : v.verbose with
  | true =>
    rw [if_pos rfl]
    refine List.filter_congr fun r _ => ?_
    rw [isWritten_eq, hv]
    cases r.isDiagnostic <;> simp
  | false =>
    rw [if_neg Bool.false_ne_true, List.filter_eq_nil_iff]
    intro r _
    rw [isWritten_eq, hv]
    cases r.isDiagnostic <;> simp

end HdlLint.Report
