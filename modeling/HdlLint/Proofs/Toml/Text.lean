import HdlLint.Toml.Text

/-!
# Texts of documents read as they were written

A written character reads as itself, whatever follows it (`basicText_writeChar`), so a written text
reads as the text and leaves what stands behind it (`quotedText_writeText`, `anyText_writeText`). No
carriage return is ever written (`not_mem_writeText`).
-/

namespace HdlLint.Toml

variable {c : Char} {cs rest : List Char}

/-! ## Characters -/

/-- The two digits of a control character, behind two zeros, read as the character. -/
theorem scalar?_hexDigit {n : Nat} (h : n < 0x80) :
    scalar? ['0', '0', hexDigit (n / 16), hexDigit (n % 16)] = some (Char.ofNat n) := by
  have hall : ∀ n < 0x80,
      scalar? ['0', '0', hexDigit (n / 16), hexDigit (n % 16)] = some (Char.ofNat n) := by
    decide +kernel
  exact hall n h

theorem toNat_lt_of_isRefused (h : isRefused c = true) : c.toNat < 0x80 := by
  simp only [isRefused, Bool.and_eq_true, Bool.or_eq_true, decide_eq_true_eq] at h
  rcases h.1 with h | rfl
  · omega
  · decide

theorem basicText_coded (h : isRefused c = true) (rest : List Char) :
    basicText ('\\' :: 'u' :: '0' :: '0' :: hexDigit (c.toNat / 16) :: hexDigit (c.toNat % 16) :: rest) =
      before c (basicText rest) := by
  have hs := scalar?_hexDigit (toNat_lt_of_isRefused h)
  rw [Char.ofNat_toNat] at hs
  have he : escaped? 'u'
      ('0' :: '0' :: hexDigit (c.toNat / 16) :: hexDigit (c.toNat % 16) :: rest) = some (c, 4) := by
    simp [escaped?, hs]
  rw [basicText, he]
  rfl

/-- A character that needs no escape. -/
theorem basicText_plain (hq : c ≠ '"') (hb : c ≠ '\\') (hr : isRefused c = false) (rest : List Char) :
    basicText (c :: rest) = before c (basicText rest) := by
  rw [basicText]
  · rw [if_neg (by simp [hr])]
  all_goals simp_all

/-- The escapes that are a backslash and one character more. -/
theorem basicText_escaped {e : Char} (h : ∀ rest, escaped? e rest = some (c, 0)) (rest : List Char) :
    basicText ('\\' :: e :: rest) = before c (basicText rest) := by
  rw [basicText, h]
  rfl

theorem basicText_writeChar (c : Char) (rest : List Char) :
    basicText (writeChar c ++ rest) = before c (basicText rest) := by
  fun_cases writeChar c with
  | case1 => exact basicText_escaped (fun _ => rfl) rest
  | case2 => exact basicText_escaped (fun _ => rfl) rest
  | case3 => exact basicText_escaped (fun _ => rfl) rest
  | case4 => exact basicText_escaped (fun _ => rfl) rest
  | case5 => exact basicText_escaped (fun _ => rfl) rest
  | case6 => exact basicText_escaped (fun _ => rfl) rest
  | case7 c _ _ _ _ _ _ h => exact basicText_coded h rest
  | case8 c _ _ _ _ hq hb h => exact basicText_plain hq hb (Bool.not_eq_true _ ▸ h) rest

theorem basicText_flatMap_writeChar (cs rest : List Char) :
    basicText (cs.flatMap writeChar ++ '"' :: rest) = some (cs, rest) := by
  induction cs with
  | nil => rw [List.flatMap_nil, List.nil_append, basicText]
  | cons c cs ih => rw [List.flatMap_cons, List.append_assoc, basicText_writeChar, ih]; rfl

/-! ## Whole texts -/

theorem quotedText_writeText (s : String) (rest : List Char) :
    quotedText (writeText s ++ rest) = some (s.toList, rest) := by
  have hw : writeText s ++ rest = '"' :: (s.toList.flatMap writeChar ++ '"' :: rest) := by
    simp [writeText]
  rw [hw, quotedText]
  exact basicText_flatMap_writeChar s.toList rest

/-- What is written for a character does not start with a quote. -/
theorem exists_writeChar (c : Char) : ∃ d ds, writeChar c = d :: ds ∧ d ≠ '"' := by
  fun_cases writeChar c with
  | case8 c _ _ _ _ hq _ _ => exact ⟨c, [], rfl, hq⟩
  | _ => exact ⟨'\\', _, rfl, by decide⟩

/-- A written text does not look like one over several lines, unless it is empty and a quote follows
it. -/
theorem anyText_writeText (s : String) (h : rest.head? ≠ some '"') :
    anyText (writeText s ++ rest) = some (s.toList, rest) := by
  rw [← quotedText_writeText s rest]
  have hw : writeText s ++ rest = '"' :: (s.toList.flatMap writeChar ++ '"' :: rest) := by
    simp [writeText]
  have hlines : ∀ r, s.toList.flatMap writeChar ++ '"' :: rest ≠ '"' :: '"' :: r := by
    intro r hr
    cases hs : s.toList with
    | nil =>
      rw [hs, List.flatMap_nil, List.nil_append, List.cons.injEq] at hr
      rw [hr.2] at h
      exact h rfl
    | cons c cs =>
      obtain ⟨d, ds, hd, hne⟩ := exists_writeChar c
      rw [hs, List.flatMap_cons, hd, List.cons_append, List.cons_append, List.cons.injEq] at hr
      exact hne hr.1
  rw [hw, anyText]
  · exact fun r hr => hlines r (List.cons.inj hr).2
  · exact fun r hr => absurd (List.cons.inj hr).1 (by decide)

/-! ## Carriage returns -/

theorem not_mem_writeChar (c : Char) : '\r' ∉ writeChar c := by
  have hhex : ∀ n < 16, hexDigit n ≠ '\r' := by decide +kernel
  fun_cases writeChar c with
  | case7 c _ _ _ _ _ _ h =>
    have hc := toNat_lt_of_isRefused h
    have h₁ := (hhex (c.toNat / 16) (by omega)).symm
    have h₂ := (hhex (c.toNat % 16) (by omega)).symm
    simp [h₁, h₂]
  | case8 c _ _ _ hr _ _ _ => simpa using Ne.symm hr
  | _ => decide

theorem not_mem_writeText (s : String) : '\r' ∉ writeText s := by
  simp [writeText, not_mem_writeChar]

end HdlLint.Toml
