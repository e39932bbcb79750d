import HdlLint.Define
import HdlLint.Proofs.Text.Occurs
import Mathlib.Data.List.Induction

/-!
# Writing with backslash escapes

Reading escapes undoes every way of writing a text with them (`Encodes`), so any text at all can be
given to a macro on the command line. Whether a backslash starts an escape is told by how many stand
in front of it: a text that ends in an even number of backslashes leaves no escape open (`Closed`),
and just these can be read apart from what follows. `Define.ofOption_encodes` puts it together.
-/

namespace HdlLint.Text

/-- The characters that have an escape, each with the mark behind the backslash. -/
def escapes : List (Char × Char) :=
  [('\n', 'n'), ('\t', 't'), ('\r', 'r'), ('\x00', '0'), ('\\', '\\'), ('"', '"'), ('\'', '\'')]

/-- A text and a way of writing it: each character as its escape or, a backslash apart, as itself. -/
inductive Encodes : (text encoding : List Char) → Prop
  | nil : Encodes [] []
  | plain {c : Char} {text encoding : List Char} (hc : c ≠ '\\') (h : Encodes text encoding) :
      Encodes (c :: text) (c :: encoding)
  | escape {c mark : Char} {text encoding : List Char} (hc : (c, mark) ∈ escapes)
      (h : Encodes text encoding) : Encodes (c :: text) ('\\' :: mark :: encoding)

/-- How many backslashes a text ends in. -/
def finalBackslashes (s : List Char) : Nat :=
  (s.reverse.takeWhile (· = '\\')).length

theorem escaped?_eq_some : ∀ e ∈ escapes, escaped? e.2 = some e.1 := by
  decide

theorem escaped?_eq_none {c : Char} (h : c ∉ escapes.map Prod.snd) : escaped? c = none := by
  simp only [escapes, List.map_cons, List.map_nil, List.mem_cons, List.not_mem_nil, or_false,
    not_or] at h
  unfold escaped?
  split <;> simp_all

/-! ## Reading from the front -/

theorem unescapeChars_plain {c : Char} (hc : c ≠ '\\') (s : List Char) :
    unescapeChars (c :: s) = c :: unescapeChars s := by
  rw [unescapeChars]
  exact fun _ _ h _ => hc h

theorem unescapeChars_escape {c mark : Char} (h : (c, mark) ∈ escapes) (s : List Char) :
    unescapeChars ('\\' :: mark :: s) = c :: unescapeChars s := by
  rw [unescapeChars, escaped?_eq_some _ h]

theorem unescapeChars_unknown {c : Char} (h : c ∉ escapes.map Prod.snd) (s : List Char) :
    unescapeChars ('\\' :: c :: s) = '\\' :: c :: unescapeChars s := by
  rw [unescapeChars, escaped?_eq_none h]

/-- Reading the escapes gives back the text that was written. -/
theorem Encodes.unescapeChars_eq {text encoding : List Char} (h : Encodes text encoding) :
    unescapeChars encoding = text := by
  induction h with
  | nil => rfl
  | plain hc _ ih => rw [unescapeChars_plain hc, ih]
  | escape hc _ ih => rw [unescapeChars_escape hc, ih]

/-- Every text can be written: it is enough to write each backslash twice. -/
theorem exists_encodes (text : List Char) : ∃ encoding, Encodes text encoding := by
  induction text with
  | nil => exact ⟨[], .nil⟩
  | cons c text ih =>
    obtain ⟨encoding, h⟩ := ih
    by_cases hc : c = '\\'
    · subst hc
      have hpair : ('\\', '\\') ∈ escapes := by decide
      exact ⟨_, .escape hpair h⟩
    · exact ⟨_, .plain hc h⟩

/-! ## Reading in two parts -/

/-- A text at the end of which no escape is open. -/
inductive Closed : List Char → Prop
  | nil : Closed []
  | plain {c : Char} {s : List Char} (hc : c ≠ '\\') (h : Closed s) : Closed (c :: s)
  | escape {c : Char} {s : List Char} (h : Closed s) : Closed ('\\' :: c :: s)

theorem Closed.append {a b : List Char} (ha : Closed a) (hb : Closed b) : Closed (a ++ b) := by
  induction ha with
  | nil => exact hb
  | plain hc _ ih => exact ih.plain hc
  | escape _ ih => exact ih.escape

/-- A text that leaves no escape open is read apart from what follows. -/
theorem Closed.unescapeChars_append {a : List Char} (h : Closed a) (b : List Char) :
    unescapeChars (a ++ b) = unescapeChars a ++ unescapeChars b := by
  induction h with
  | nil => rfl
  | plain hc _ ih =>
    rw [List.cons_append, unescapeChars_plain hc, unescapeChars_plain hc, ih, List.cons_append]
  | @escape c s _ ih =>
    rw [List.cons_append, List.cons_append, unescapeChars, unescapeChars]
    cases escaped? c with
    | some d => rw [ih, List.cons_append]
    | none => rw [ih, List.cons_append, List.cons_append]

theorem finalBackslashes_concat (s : List Char) (c : Char) :
    finalBackslashes (s ++ [c]) = if c = '\\' then finalBackslashes s + 1 else 0 := by
  rw [finalBackslashes, List.reverse_append, List.reverse_singleton, List.singleton_append,
    List.takeWhile_cons]
  by_cases hc : c = '\\' <;> simp [hc, finalBackslashes]

/-- An even number of backslashes at the end leaves no escape open, and of an odd number the last one
opens an escape. -/
theorem closed_cases (s : List Char) :
    (finalBackslashes s % 2 = 0 ∧ Closed s) ∨
      (finalBackslashes s % 2 = 1 ∧ ∃ front, s = front ++ ['\\'] ∧ Closed front) := by
  -- from the end, where the backslashes are counted: one more of them opens an escape or closes it
  induction s using List.reverseRecOn with
  | nil => exact .inl ⟨rfl, .nil⟩
  | append_singleton s c ih =>
    rw [finalBackslashes_concat]
    by_cases hc : c = '\\'
    · subst hc
      rw [if_pos rfl]
      rcases ih with ⟨heven, hs⟩ | ⟨hodd, front, rfl, hfront⟩
      · exact .inr ⟨by omega, s, rfl, hs⟩
      · refine .inl ⟨by omega, ?_⟩
        rw [List.append_assoc]
        exact hfront.append Closed.nil.escape
    · rw [if_neg hc]
      refine .inl ⟨rfl, ?_⟩
      rcases ih with ⟨-, hs⟩ | ⟨-, front, rfl, hfront⟩
      · exact hs.append (Closed.nil.plain hc)
      · rw [List.append_assoc]
        exact hfront.append Closed.nil.escape

theorem closed_of_even {s : List Char} (h : finalBackslashes s % 2 = 0) : Closed s := by
  rcases closed_cases s with ⟨-, hs⟩ | ⟨hodd, -⟩
  · exact hs
  · omega

/-- The texts that can be read apart from all that may follow are those that end in an even number of
backslashes. -/
theorem unescapeChars_append_iff {a : List Char} :
    (∀ b, unescapeChars (a ++ b) = unescapeChars a ++ unescapeChars b) ↔
      finalBackslashes a % 2 = 0 := by
  refine ⟨fun h => ?_, fun h => (closed_of_even h).unescapeChars_append⟩
  rcases closed_cases a with ⟨heven, -⟩ | ⟨-, front, rfl, hfront⟩
  · exact heven
  · -- one more backslash completes an escape, but by itself it stays
    have hpair := h ['\\']
    rw [List.append_assoc, hfront.unescapeChars_append, hfront.unescapeChars_append] at hpair
    have hlength := congrArg List.length hpair
    simp [unescapeChars, escaped?] at hlength

theorem unescape_append_iff {a b : String} :
    unescape (a ++ b) = unescape a ++ unescape b ↔
      unescapeChars (a.toList ++ b.toList) = unescapeChars a.toList ++ unescapeChars b.toList := by
  rw [unescape, unescape, unescape, String.toList_append, ← String.ofList_append,
    String.ofList_inj]

theorem unescape_append {a : String} (h : finalBackslashes a.toList % 2 = 0) (b : String) :
    unescape (a ++ b) = unescape a ++ unescape b :=
  unescape_append_iff.mpr ((closed_of_even h).unescapeChars_append b.toList)

theorem unescape_unknown {c : Char} (h : c ∉ escapes.map Prod.snd) (s : String) :
    unescape (String.ofList ['\\', c] ++ s) = String.ofList ['\\', c] ++ unescape s := by
  rw [unescape, unescape, String.toList_append, String.toList_ofList, List.cons_append,
    List.cons_append, List.nil_append, unescapeChars_unknown h, ← String.ofList_append]
  rfl

end HdlLint.Text

namespace HdlLint.Define

open Text

theorem splitEquals_append_cons {name : List Char} (h : '=' ∉ name) (text : List Char) :
    splitEquals (name ++ '=' :: text) = (name, some text) := by
  rw [splitEquals, dropWhile_ne_append_cons h, takeWhile_ne_append_cons h]

/-- Every text can be given to a macro on the command line: however a text is written with escapes,
behind a name and an equals sign it is read back as it is. The texts whose escapes can be read apart
from all that may follow are those that end in an even number of backslashes; behind such a text an
escape without a meaning and a last lone backslash stay as they are written. -/
theorem ofOption_encodes :
    (∀ text, ∃ encoding, Encodes text encoding) ∧
    (∀ identifier text encoding : String, '=' ∉ identifier.toList →
      Encodes text.toList encoding.toList →
      ofOption (identifier ++ "=" ++ encoding) = ⟨identifier, [], some text⟩) ∧
    (∀ a : String, (∀ b, unescape (a ++ b) = unescape a ++ unescape b) ↔
      finalBackslashes a.toList % 2 = 0) ∧
    ∀ a : String, finalBackslashes a.toList % 2 = 0 →
      (∀ c ∉ escapes.map Prod.snd, ∀ b, unescape (a ++ String.ofList ['\\', c] ++ b) =
        unescape a ++ String.ofList ['\\', c] ++ unescape b) ∧
      unescape (a ++ "\\") = unescape a ++ "\\" := by
  refine ⟨exists_encodes, fun identifier text encoding hname htext => ?_, fun a => ?_,
    fun a ha => ⟨fun c hc b => ?_, ?_⟩⟩
  · have hline : (identifier ++ "=" ++ encoding).toList =
        identifier.toList ++ '=' :: encoding.toList := by simp
    simp only [ofOption, hline, splitEquals_append_cons hname, htext.unescapeChars_eq,
      String.ofList_toList, Option.map_some]
  · rw [← unescapeChars_append_iff]
    refine ⟨fun h b => ?_, fun h b => unescape_append_iff.mpr (h b.toList)⟩
    have hb := unescape_append_iff.mp (h (String.ofList b))
    rwa [String.toList_ofList] at hb
  · rw [String.append_assoc, unescape_append ha, unescape_unknown hc, String.append_assoc]
  · rw [unescape_append ha]
    rfl

/-- A text with a line end, a quote and a backslash is given with all three as escapes; behind a pair of
backslashes an escape without a meaning stays. -/
theorem ofOption_encodes_sample :
    '=' ∉ "M".toList ∧
    Encodes "a=\n\"\\".toList "a=\\n\\\"\\\\".toList ∧
    ofOption ("M" ++ "=" ++ "a=\\n\\\"\\\\") = ⟨"M", [], some "a=\n\"\\"⟩ ∧
    finalBackslashes "a\\\\".toList % 2 = 0 ∧
    unescape ("a\\\\" ++ String.ofList ['\\', 'q'] ++ "\\n") = "a\\\\q\n" := by
  obtain ⟨-, hoption, -, hkept⟩ := ofOption_encodes
  have hname : '=' ∉ "M".toList := by decide
  have htext : Encodes "a=\n\"\\".toList "a=\\n\\\"\\\\".toList :=
    .plain (by decide) <| .plain (by decide) <| .escape (by decide) <| .escape (by decide) <|
      .escape (by decide) .nil
  have heven : finalBackslashes "a\\\\".toList % 2 = 0 := by decide
  refine ⟨hname, htext, hoption _ _ _ hname htext, heven, ?_⟩
  rw [(hkept _ heven).1 'q' (by decide)]
  decide

end HdlLint.Define
