import HdlLint.Environment
import HdlLint.Proofs.Text.Occurs
import Mathlib.Data.List.Basic

/-!
# Expanding a line

A reference to a variable is a name in brackets (`Reference`), and reading a text from left to right
cuts it into references and single characters (`Scans`): where a reference starts, it is passed over
as a whole. Expanding a text puts the values of the variables in the places of their references and
does nothing else, whatever the values are (`Scans.expandChars_eq`). In a line of references between
texts without `$` these are all references there are (`expand_written`). `expand_pieces` puts it
together.
-/

namespace HdlLint

/-- The brackets of a reference. -/
inductive Bracket
  | brace
  | parenthesis
deriving DecidableEq

namespace Bracket

def opening : Bracket → Char
  | brace => '{'
  | parenthesis => '('

def closing : Bracket → Char
  | brace => '\x7d'
  | parenthesis => ')'

/-- The other brackets. -/
def other : Bracket → Bracket
  | brace => parenthesis
  | parenthesis => brace

end Bracket

/-- A reference to a variable: a name that is not empty, up to the first closing bracket. -/
structure Reference where
  bracket : Bracket
  name : List Char
  ne_nil : name ≠ []
  closing_not_mem : bracket.closing ∉ name

namespace Reference

variable (r : Reference)

/-- A reference as it is written. -/
def text : List Char :=
  '$' :: r.bracket.opening :: (r.name ++ [r.bracket.closing])

/-- The value of the variable of a reference, if it has one. -/
def value? (env : Environment) : Option String :=
  env.get? (String.ofList r.name)

/-- What a reference is replaced by: a reference to an unknown variable stays. -/
def expansion (env : Environment) : List Char :=
  match r.value? env with
  | some value => value.toList
  | none => r.text

/-- The reference in the other brackets, which may not close within the name. -/
def turned (h : r.bracket.other.closing ∉ r.name) : Reference :=
  ⟨r.bracket.other, r.name, r.ne_nil, h⟩

theorem text_append (s : List Char) :
    r.text ++ s = '$' :: r.bracket.opening :: (r.name ++ r.bracket.closing :: s) := by
  simp [text]

end Reference

namespace Environment

/-! ## Where a reference starts -/

theorem nameUpTo?_eq_some_iff {close : Char} {s name rest : List Char} :
    nameUpTo? close s = some (name, rest) ↔
      name ≠ [] ∧ close ∉ name ∧ s = name ++ close :: rest := by
  constructor
  · intro h
    unfold nameUpTo? at h
    split at h
    · rename_i c n d r htake hdrop
      cases h
      have hsplit := List.takeWhile_append_dropWhile (p := fun c => decide (c ≠ close)) (l := s)
      have hd : d = close := by
        have := List.head?_dropWhile_not (fun c => decide (c ≠ close)) s
        rw [hdrop] at this
        simpa using this
      refine ⟨List.cons_ne_nil _ _, fun hmem => ?_, ?_⟩
      · have := List.all_eq_true.mp List.all_takeWhile close (htake ▸ hmem)
        simp at this
      · rw [← hsplit, htake, hdrop, hd]
    · cases h
  · rintro ⟨hne, hclose, rfl⟩
    obtain ⟨c, n, rfl⟩ := List.exists_cons_of_ne_nil hne
    simp only [nameUpTo?, Text.takeWhile_ne_append_cons hclose, Text.dropWhile_ne_append_cons hclose]

theorem reference?_text_append (r : Reference) (s : List Char) :
    reference? (r.text ++ s) = some (r.name, s) := by
  have hname : nameUpTo? r.bracket.closing (r.name ++ r.bracket.closing :: s) = some (r.name, s) :=
    nameUpTo?_eq_some_iff.mpr ⟨r.ne_nil, r.closing_not_mem, rfl⟩
  rw [r.text_append]
  cases hb : r.bracket <;> rw [hb] at hname <;> exact hname

/-- A text starts with a reference if and only if one is found there. -/
theorem reference?_eq_some_iff {s name rest : List Char} :
    reference? s = some (name, rest) ↔ ∃ r : Reference, r.name = name ∧ s = r.text ++ rest := by
  constructor
  · intro h
    unfold reference? at h
    split at h
    · obtain ⟨hne, hclose, rfl⟩ := nameUpTo?_eq_some_iff.mp h
      let r : Reference := ⟨.brace, name, hne, hclose⟩
      exact ⟨r, rfl, (r.text_append rest).symm⟩
    · obtain ⟨hne, hclose, rfl⟩ := nameUpTo?_eq_some_iff.mp h
      let r : Reference := ⟨.parenthesis, name, hne, hclose⟩
      exact ⟨r, rfl, (r.text_append rest).symm⟩
    · cases h
  · rintro ⟨r, rfl, rfl⟩
    exact reference?_text_append r rest

theorem reference?_eq_none_iff {s : List Char} :
    reference? s = none ↔ ∀ r : Reference, ¬r.text <+: s := by
  constructor
  · rintro h r ⟨rest, rfl⟩
    rw [reference?_text_append] at h
    cases h
  · intro h
    cases hs : reference? s with
    | none => rfl
    | some found =>
      obtain ⟨r, -, rfl⟩ := reference?_eq_some_iff.mp hs
      exact absurd (List.prefix_append _ _) (h r)

theorem not_text_prefix_of_ne {c : Char} (hc : c ≠ '$') (s : List Char) (r : Reference) :
    ¬r.text <+: c :: s :=
  fun h => hc (List.cons_prefix_cons.mp h).1.symm

/-! ## One step -/

theorem expandChars_reference (env : Environment) (r : Reference) (s : List Char) :
    env.expandChars (r.text ++ s) = r.expansion env ++ env.expandChars s := by
  have hfound := reference?_text_append r s
  rw [r.text_append] at hfound ⊢
  rw [expandChars]
  split
  · next name rest h =>
    rw [hfound] at h
    cases h
    rw [Reference.expansion, Reference.value?]
    cases env.get? (String.ofList r.name) with
    | some value => rfl
    | none =>
      dsimp only
      rw [← r.text_append, List.length_append, Nat.add_sub_cancel_right, List.take_left]
  · next h =>
    rw [hfound] at h
    cases h

theorem expandChars_plain (env : Environment) {c : Char} {s : List Char}
    (h : ∀ r : Reference, ¬r.text <+: c :: s) :
    env.expandChars (c :: s) = c :: env.expandChars s := by
  have hnone := reference?_eq_none_iff.mpr h
  rw [expandChars]
  split
  · next hsome =>
    rw [hnone] at hsome
    cases hsome
  · rfl

theorem referencedNames_reference (r : Reference) (s : List Char) :
    referencedNames (r.text ++ s) = String.ofList r.name :: referencedNames s := by
  have hfound := reference?_text_append r s
  rw [r.text_append] at hfound ⊢
  rw [referencedNames]
  split
  · next name rest h =>
    rw [hfound] at h
    cases h
    rfl
  · next h =>
    rw [hfound] at h
    cases h

theorem referencedNames_plain {c : Char} {s : List Char} (h : ∀ r : Reference, ¬r.text <+: c :: s) :
    referencedNames (c :: s) = referencedNames s := by
  have hnone := reference?_eq_none_iff.mpr h
  rw [referencedNames]
  split
  · next hsome =>
    rw [hnone] at hsome
    cases hsome
  · rfl

end Environment

/-! ## Pieces of a text -/

/-- A piece of a text: a reference, or characters that are none. -/
inductive Piece
  | literal (segment : List Char)
  | reference (r : Reference)

namespace Piece

/-- A piece as it is written. -/
def text : Piece → List Char
  | literal segment => segment
  | reference r => r.text

/-- A piece as it stands in the expansion. -/
def expansion (env : Environment) : Piece → List Char
  | literal segment => segment
  | reference r => r.expansion env

/-- The text of some pieces. -/
def written (ps : List Piece) : String :=
  String.ofList (ps.flatMap text)

/-- The expansion of some pieces. -/
def expanded (env : Environment) (ps : List Piece) : String :=
  String.ofList (ps.flatMap (expansion env))

/-- Pieces whose literal segments hold no `$`. -/
def Separated (ps : List Piece) : Prop :=
  ∀ segment, literal segment ∈ ps → '$' ∉ segment

end Piece

/-- A text and its pieces from left to right: a reference where one starts, else one character. -/
inductive Scans : List Char → List Piece → Prop
  | nil : Scans [] []
  | reference {r : Reference} {s : List Char} {ps : List Piece} (h : Scans s ps) :
      Scans (r.text ++ s) (.reference r :: ps)
  | character {c : Char} {s : List Char} {ps : List Piece}
      (hc : ∀ r : Reference, ¬r.text <+: c :: s) (h : Scans s ps) :
      Scans (c :: s) (.literal [c] :: ps)

theorem exists_scans (s : List Char) : ∃ ps, Scans s ps := by
  -- the references are met in the order in which their names are collected
  fun_induction Environment.referencedNames s with
  | case1 => exact ⟨[], .nil⟩
  | case2 c s name rest hr hlt ih =>
    obtain ⟨ps, hps⟩ := ih
    obtain ⟨r, -, htext⟩ := Environment.reference?_eq_some_iff.mp hr
    exact ⟨.reference r :: ps, htext ▸ hps.reference⟩
  | case3 c s hr ih =>
    obtain ⟨ps, hps⟩ := ih
    exact ⟨.literal [c] :: ps, hps.character (Environment.reference?_eq_none_iff.mp hr)⟩

namespace Scans

variable {s : List Char} {ps : List Piece}

theorem text_eq (h : Scans s ps) : ps.flatMap Piece.text = s := by
  induction h with
  | nil => rfl
  | reference _ ih => rw [List.flatMap_cons, ih, Piece.text]
  | character _ _ ih => rw [List.flatMap_cons, ih, Piece.text, List.singleton_append]

/-- Each reference that is met is replaced once, and all else stays as it is. -/
theorem expandChars_eq (h : Scans s ps) (env : Environment) :
    env.expandChars s = ps.flatMap (Piece.expansion env) := by
  induction h with
  | nil => rw [Environment.expandChars, List.flatMap_nil]
  | reference _ ih =>
    rw [Environment.expandChars_reference, ih, List.flatMap_cons, Piece.expansion]
  | character hc _ ih =>
    rw [Environment.expandChars_plain env hc, ih, List.flatMap_cons, Piece.expansion,
      List.singleton_append]

theorem mem_referencedNames (h : Scans s ps) {r : Reference} (hr : .reference r ∈ ps) :
    String.ofList r.name ∈ Environment.referencedNames s := by
  induction h with
  | nil => cases hr
  | reference _ ih =>
    rw [Environment.referencedNames_reference]
    rcases List.mem_cons.mp hr with heq | hr
    · cases heq
      exact List.mem_cons_self
    · exact List.mem_cons_of_mem _ (ih hr)
  | character hc _ ih =>
    rw [Environment.referencedNames_plain hc]
    rcases List.mem_cons.mp hr with heq | hr
    · cases heq
    · exact ih hr

/-- A text that refers to unknown variables only is left as it is. -/
theorem expandChars_of_unknown (h : Scans s ps) {env : Environment}
    (hnone : ∀ r, .reference r ∈ ps → r.value? env = none) : env.expandChars s = s := by
  have hsame : ∀ p ∈ ps, p.expansion env = p.text := by
    intro p hp
    cases p with
    | literal segment => rfl
    | reference r => rw [Piece.expansion, Reference.expansion, hnone r hp, Piece.text]
  rw [h.expandChars_eq env, List.flatMap_congr hsame, h.text_eq]

end Scans

namespace Environment

theorem expandChars_of_unknown {env : Environment} {s : List Char}
    (h : ∀ name ∈ referencedNames s, env.get? name = none) : env.expandChars s = s := by
  obtain ⟨ps, hps⟩ := exists_scans s
  exact hps.expandChars_of_unknown fun r hr => h _ (hps.mem_referencedNames hr)

/-! ## Lines of references -/

theorem expandChars_append_of_not_mem (env : Environment) {segment : List Char}
    (h : '$' ∉ segment) (s : List Char) :
    env.expandChars (segment ++ s) = segment ++ env.expandChars s := by
  induction segment with
  | nil => rfl
  | cons c segment ih =>
    rw [List.mem_cons, not_or] at h
    rw [List.cons_append, expandChars_plain env (not_text_prefix_of_ne (Ne.symm h.1) _), ih h.2,
      List.cons_append]

/-- Between texts without the mark of a reference all references are read as they were written. -/
theorem expand_written (env : Environment) {ps : List Piece} (h : Piece.Separated ps) :
    env.expand (Piece.written ps) = Piece.expanded env ps := by
  rw [expand, Piece.written, Piece.expanded, String.toList_ofList, String.ofList_inj]
  induction ps with
  | nil => rw [List.flatMap_nil, List.flatMap_nil, expandChars]
  | cons p ps ih =>
    have hps := ih fun segment hs => h segment (List.mem_cons_of_mem p hs)
    rw [List.flatMap_cons, List.flatMap_cons]
    cases p with
    | literal segment =>
      rw [Piece.text, Piece.expansion,
        expandChars_append_of_not_mem env (h segment List.mem_cons_self), hps]
    | reference r => rw [Piece.text, Piece.expansion, expandChars_reference, hps]

/-- The other brackets make no difference to a variable that has a value. -/
theorem expansion_turned {env : Environment} {r : Reference} (h : r.bracket.other.closing ∉ r.name)
    (hvalue : r.value? env ≠ none) : (r.turned h).expansion env = r.expansion env := by
  have hsame : (r.turned h).value? env = r.value? env := rfl
  rw [Reference.expansion, Reference.expansion, hsame]
  cases hv : r.value? env with
  | some value => rfl
  | none => exact absurd hv hvalue

/-- Expanding a line of references, with texts without `$` between them, puts the values of the known
variables in their places and leaves all else as it is written; brackets of the other kind make no
difference to a known variable. Any text at all consists of the references that are met from left to
right and of single characters. Expanding it replaces these references and nothing else, so it stays
as it is where none of them has a value. -/
theorem expand_pieces (env : Environment) :
    (∀ ps, Piece.Separated ps → env.expand (Piece.written ps) = Piece.expanded env ps) ∧
    (∀ (before after : List Piece) (r : Reference) (h : r.bracket.other.closing ∉ r.name),
      Piece.Separated (before ++ .reference r :: after) → r.value? env ≠ none →
      env.expand (Piece.written (before ++ .reference (r.turned h) :: after)) =
        env.expand (Piece.written (before ++ .reference r :: after))) ∧
    (∀ s : String, ∃ ps, Scans s.toList ps) ∧
    ∀ (s : String) ps, Scans s.toList ps → env.expand s = Piece.expanded env ps ∧
      ((∀ r, .reference r ∈ ps → r.value? env = none) → env.expand s = s) := by
  refine ⟨fun ps => env.expand_written, fun before after r h hsep hvalue => ?_,
    fun s => exists_scans s.toList, fun s ps hs => ⟨?_, fun hnone => ?_⟩⟩
  · have hturned : Piece.Separated (before ++ .reference (r.turned h) :: after) := by
      intro segment hmem
      refine hsep segment ?_
      simpa using hmem
    rw [expand_written env hsep, expand_written env hturned, Piece.expanded, Piece.expanded,
      List.flatMap_append, List.flatMap_append, List.flatMap_cons, List.flatMap_cons,
      Piece.expansion, Piece.expansion, expansion_turned h hvalue]
  · rw [expand, hs.expandChars_eq env, Piece.expanded]
  · rw [expand, hs.expandChars_of_unknown hnone, String.ofList_toList]

/-- The value `$` of the first variable makes a reference with the text behind it, which is not read
again; the third reference is to no variable. -/
theorem expand_pieces_sample :
    let env : Environment := ⟨[("A", "$"), ("B", "b")]⟩
    let braced : Reference := ⟨.brace, ['B'], nofun, by decide⟩
    let before : List Piece :=
      [.reference ⟨.brace, ['A'], nofun, by decide⟩, .literal "\x7bB\x7d ".toList]
    let after : List Piece := [.reference ⟨.parenthesis, ['C'], nofun, by decide⟩]
    Piece.Separated (before ++ .reference braced :: after) ∧ braced.value? env ≠ none ∧
    Piece.written (before ++ .reference braced :: after) = "$\x7bA\x7d\x7bB\x7d $\x7bB\x7d$(C)" ∧
    env.expand "$\x7bA\x7d\x7bB\x7d $\x7bB\x7d$(C)" = "$\x7bB\x7d b$(C)" ∧
    env.expand "$\x7bA\x7d\x7bB\x7d $(B)$(C)" = "$\x7bB\x7d b$(C)" := by
  intro env braced before after
  have hsep : Piece.Separated (before ++ .reference braced :: after) := by
    intro segment hmem
    simp only [before, after, List.cons_append, List.nil_append, List.mem_cons, List.not_mem_nil,
      or_false, reduceCtorEq, false_or, Piece.literal.injEq] at hmem
    subst hmem
    decide
  have hknown : braced.value? env ≠ none := by decide
  obtain ⟨hline, hturned, -⟩ := expand_pieces env
  have hexpanded := hline _ hsep
  refine ⟨hsep, hknown, rfl, hexpanded, ?_⟩
  exact (hturned before after braced (by decide) hsep hknown).trans hexpanded

end Environment

end HdlLint
