import HdlLint.Proofs.Text.Utf8

/-!
# Text with replacement characters

What `decodeLossy` makes of bytes, without its steps: `Shows` cuts them into characters as they are
spelled and faults between them. A fault is as long as it could still have become a character
(`IsFault`), so there is one way only to cut bytes, and the text is the one that is read
(`shows_iff`). For this, a step that gives a character took the bytes that spell it
(`eq_append_of_next`), and a step that gives none passed over a fault (`exists_isFault_of_next`).
-/

namespace HdlLint.Text

namespace Utf8

/-! ## Bytes that spell a character -/

theorem toNat_val_ofNat {n : Nat} (h : n.isValidChar) : (Char.ofNat n).val.toNat = n := by
  rw [Char.ofNat, dif_pos h]
  rfl

theorem eq_ofNat {a : UInt8} {n : Nat} (h : n = a.toNat) : a = UInt8.ofNat n := by
  rw [h, UInt8.ofNat_toNat]

theorem toNat_continuation_of {b : UInt8} (hb : isContinuation b = true) :
    b.toNat = payload b + 0x80 ∧ payload b < 64 := by
  rw [isContinuation_iff] at hb
  rw [payload]
  omega

theorem isContinuation_of_isSecond {a b : UInt8} (hb : isSecond a b = true) :
    isContinuation b = true :=
  (isContinuation_iff b).mpr ((isSecond_iff a b).mp hb).1

theorem lead_bounds {a : UInt8} (h : ¬(a < 0xc2 || 0xf5 ≤ a) = true) :
    0xc2 ≤ a.toNat ∧ a.toNat < 0xf5 := by
  simp only [Bool.or_eq_true, decide_eq_true_eq, UInt8.lt_iff_toNat_lt, UInt8.le_iff_toNat_le,
    UInt8.reduceToNat] at h
  omega

theorem utf8EncodeChar_one {a : UInt8} (ha : a.toNat < 0x80) :
    String.utf8EncodeChar (Char.ofNat a.toNat) = [a] := by
  have hv := toNat_val_ofNat (n := a.toNat) (.inl (by omega))
  rw [String.utf8EncodeChar, hv, if_pos (by omega), ← eq_ofNat rfl]

theorem utf8EncodeChar_two {a b : UInt8} (ha : 0xc2 ≤ a.toNat ∧ a.toNat < 0xe0)
    (hb : isContinuation b = true) :
    String.utf8EncodeChar (Char.ofNat (a.toNat % 32 * 64 + payload b)) = [a, b] := by
  obtain ⟨hb, hp⟩ := toNat_continuation_of hb
  have hv := toNat_val_ofNat (n := a.toNat % 32 * 64 + payload b) (.inl (by omega))
  rw [String.utf8EncodeChar, hv, if_neg (by omega), if_pos (by omega),
    ← eq_ofNat (a := a) (by omega), ← eq_ofNat (a := b) (by omega)]

theorem utf8EncodeChar_three {a b c : UInt8} (ha : 0xe0 ≤ a.toNat ∧ a.toNat < 0xf0)
    (hb : isSecond a b = true) (hc : isContinuation c = true) :
    String.utf8EncodeChar
      (Char.ofNat ((a.toNat % 16 * 64 + payload b) * 64 + payload c)) = [a, b, c] := by
  have hsecond := (isSecond_iff a b).mp hb
  obtain ⟨hb, hp⟩ := toNat_continuation_of (isContinuation_of_isSecond hb)
  obtain ⟨hc, hq⟩ := toNat_continuation_of hc
  have hvalid : ((a.toNat % 16 * 64 + payload b) * 64 + payload c).isValidChar := by
    rw [Nat.isValidChar]
    omega
  have hv := toNat_val_ofNat hvalid
  rw [String.utf8EncodeChar, hv, if_neg (by omega), if_neg (by omega), if_pos (by omega),
    ← eq_ofNat (a := a) (by omega), ← eq_ofNat (a := b) (by omega), ← eq_ofNat (a := c) (by omega)]

theorem utf8EncodeChar_four {a b c d : UInt8} (ha : 0xf0 ≤ a.toNat ∧ a.toNat < 0xf5)
    (hb : isSecond a b = true) (hc : isContinuation c = true) (hd : isContinuation d = true) :
    String.utf8EncodeChar (Char.ofNat
      (((a.toNat % 8 * 64 + payload b) * 64 + payload c) * 64 + payload d)) = [a, b, c, d] := by
  have hsecond := (isSecond_iff a b).mp hb
  obtain ⟨hb, hp⟩ := toNat_continuation_of (isContinuation_of_isSecond hb)
  obtain ⟨hc, hq⟩ := toNat_continuation_of hc
  obtain ⟨hd, hr⟩ := toNat_continuation_of hd
  have hvalid :
      (((a.toNat % 8 * 64 + payload b) * 64 + payload c) * 64 + payload d).isValidChar := by
    rw [Nat.isValidChar]
    omega
  have hv := toNat_val_ofNat hvalid
  rw [String.utf8EncodeChar, hv, if_neg (by omega), if_neg (by omega), if_neg (by omega),
    ← eq_ofNat (a := a) (by omega), ← eq_ofNat (a := b) (by omega), ← eq_ofNat (a := c) (by omega),
    ← eq_ofNat (a := d) (by omega)]

theorem le_toNat_of_not_lt {a b : UInt8} (h : ¬a < b) : b.toNat ≤ a.toNat :=
  UInt8.le_iff_toNat_le.mp (UInt8.not_lt.mp h)

/-- A character that is read is spelled by the bytes that were taken. -/
theorem eq_append_of_next {a : UInt8} {rest rest' : List UInt8} {ch : Char}
    (h : next a rest = .char ch rest') : a :: rest = String.utf8EncodeChar ch ++ rest' := by
  revert h
  fun_cases next a rest with
  | case1 rest ha =>
    rintro ⟨⟩
    rw [utf8EncodeChar_one (UInt8.lt_iff_toNat_lt.mp ha)]
    rfl
  | case5 _ ha b rest hb htwo =>
    rintro ⟨⟩
    have hbounds := lead_bounds ha
    have hb : isSecond a b = true := by simpa using hb
    rw [utf8EncodeChar_two ⟨hbounds.1, UInt8.lt_iff_toNat_lt.mp htwo⟩
      (isContinuation_of_isSecond hb)]
    rfl
  | case8 _ _ b hb htwo c rest hc hthree =>
    rintro ⟨⟩
    have hb : isSecond a b = true := by simpa using hb
    have hc : isContinuation c = true := by simpa using hc
    rw [utf8EncodeChar_three ⟨le_toNat_of_not_lt htwo, UInt8.lt_iff_toNat_lt.mp hthree⟩ hb hc]
    rfl
  | case11 _ ha b hb _ c hc hthree d rest hd =>
    rintro ⟨⟩
    have hb : isSecond a b = true := by simpa using hb
    have hc : isContinuation c = true := by simpa using hc
    have hd : isContinuation d = true := by simpa using hd
    rw [utf8EncodeChar_four ⟨le_toNat_of_not_lt hthree, (lead_bounds ha).2⟩ hb hc hd]
    rfl
  | _ => exact nofun

end Utf8

open Utf8

/-! ## Starts of characters -/

/-- Whether bytes are the start of a character, or a whole one. -/
def Starts (bytes : List UInt8) : Prop :=
  ∃ c, bytes <+: String.utf8EncodeChar c

/-- Bytes are the start of a character if others behind them make one of them. -/
theorem starts_cons_iff {a : UInt8} {bytes : List UInt8} :
    Starts (a :: bytes) ↔ ∃ more c, next a (bytes ++ more) = .char c [] := by
  constructor
  · rintro ⟨c, more, hc⟩
    obtain ⟨first, rest, hfirst, hnext⟩ := next_utf8EncodeChar c []
    obtain ⟨rfl, rfl⟩ := List.cons.inj (hc.trans hfirst)
    rw [List.append_nil] at hnext
    exact ⟨more, c, hnext⟩
  · rintro ⟨more, c, hnext⟩
    refine ⟨c, more, ?_⟩
    rw [List.cons_append, eq_append_of_next hnext, List.append_nil]

/-- Two bytes of a longer character are filled up by further ones. -/
theorem starts_two {a b : UInt8} (ha : 0xe0 ≤ a.toNat ∧ a.toNat < 0xf5)
    (hb : isSecond a b = true) : Starts [a, b] := by
  by_cases hthree : a.toNat < 0xf0
  · exact starts_cons_iff.mpr ⟨[0x80], _, next_three ⟨ha.1, hthree⟩ hb (by decide) []⟩
  · exact starts_cons_iff.mpr ⟨[0x80, 0x80], _,
      next_four ⟨Nat.not_lt.mp hthree, ha.2⟩ hb (by decide) (by decide) []⟩

theorem starts_three {a b c : UInt8} (ha : 0xf0 ≤ a.toNat ∧ a.toNat < 0xf5)
    (hb : isSecond a b = true) (hc : isContinuation c = true) : Starts [a, b, c] :=
  starts_cons_iff.mpr ⟨[0x80], _, next_four ha hb hc (by decide) []⟩

/-! ## Faults -/

/-- Whether bytes in front of others show as one replacement character: no character stands there,
and they are the longest start of one that does, or a single byte if none does. -/
structure IsFault (bad rest : List UInt8) : Prop where
  ne_nil : bad ≠ []
  no_char : ∀ c, ¬String.utf8EncodeChar c <+: bad ++ rest
  starts : bad.length = 1 ∨ Starts bad
  longest : ∀ b more, rest = b :: more → ¬Starts (bad ++ [b])

theorem no_char_of_next {a : UInt8} {rest rest' : List UInt8} {n : Nat} {cause : Utf8Cause}
    (h : next a rest = .fault n cause rest') (c : Char) :
    ¬String.utf8EncodeChar c <+: a :: rest := by
  rintro ⟨more, hc⟩
  obtain ⟨first, bytes, hfirst, hnext⟩ := next_utf8EncodeChar c more
  rw [hfirst, List.cons_append] at hc
  obtain ⟨rfl, rfl⟩ := List.cons.inj hc
  cases h.symm.trans hnext

/-- No character starts with bytes that never are read as one, whatever stands behind them. -/
theorem not_starts_of_next {a : UInt8} {bytes : List UInt8}
    (h : ∀ more c, next a (bytes ++ more) ≠ .char c []) : ¬Starts (a :: bytes) := by
  intro hstarts
  obtain ⟨more, c, hnext⟩ := starts_cons_iff.mp hstarts
  exact h more c hnext

/-- The bytes that are passed over at a fault show as one replacement character. -/
theorem exists_isFault_of_next {a : UInt8} {rest rest' : List UInt8} {n : Nat} {cause : Utf8Cause}
    (h : next a rest = .fault n cause rest') :
    ∃ bad, a :: rest = bad ++ rest' ∧ IsFault bad rest' := by
  have hno := no_char_of_next h
  revert h
  -- a fault ends at a byte that its start cannot go on with, or with the text
  fun_cases next a rest with
  | case2 rest ha hstart =>
    rintro ⟨⟩
    refine ⟨[a], rfl, List.cons_ne_nil _ _, hno, .inl rfl, fun b _ _ => ?_⟩
    exact not_starts_of_next fun more c => by simp [next, ha, hstart]
  | case3 =>
    rintro ⟨⟩
    exact ⟨[a], rfl, List.cons_ne_nil _ _, hno, .inl rfl, nofun⟩
  | case4 ha hstart b rest hb =>
    rintro ⟨⟩
    refine ⟨[a], rfl, List.cons_ne_nil _ _, hno, .inl rfl, ?_⟩
    rintro b more ⟨⟩
    exact not_starts_of_next fun more c => by simp [next, ha, hstart, hb]
  | case6 _ ha b hb htwo =>
    rintro ⟨⟩
    have hstarts := starts_two ⟨le_toNat_of_not_lt htwo, (lead_bounds ha).2⟩ (by simpa using hb)
    exact ⟨[a, b], rfl, List.cons_ne_nil _ _, hno, .inr hstarts, nofun⟩
  | case7 hone ha b hb htwo c rest hc =>
    rintro ⟨⟩
    have hstarts := starts_two ⟨le_toNat_of_not_lt htwo, (lead_bounds ha).2⟩ (by simpa using hb)
    refine ⟨[a, b], rfl, List.cons_ne_nil _ _, hno, .inr hstarts, ?_⟩
    rintro c more ⟨⟩
    exact not_starts_of_next fun more ch => by simp [next, hone, ha, hb, htwo, hc]
  | case9 _ ha b hb _ c hc hthree =>
    rintro ⟨⟩
    have hstarts := starts_three ⟨le_toNat_of_not_lt hthree, (lead_bounds ha).2⟩
      (by simpa using hb) (by simpa using hc)
    exact ⟨[a, b, c], rfl, List.cons_ne_nil _ _, hno, .inr hstarts, nofun⟩
  | case10 hone ha b hb htwo c hc hthree d rest hd =>
    rintro ⟨⟩
    have hstarts := starts_three ⟨le_toNat_of_not_lt hthree, (lead_bounds ha).2⟩
      (by simpa using hb) (by simpa using hc)
    refine ⟨[a, b, c], rfl, List.cons_ne_nil _ _, hno, .inr hstarts, ?_⟩
    rintro d more ⟨⟩
    exact not_starts_of_next fun more ch => by simp [next, hone, ha, hb, htwo, hc, hthree, hd]
  | _ => exact nofun

theorem Starts.mono {bytes start : List UInt8} (h : Starts bytes) (hstart : start <+: bytes) :
    Starts start :=
  h.imp fun _ hc => hstart.trans hc

/-- Of two faults at one place neither is the longer one: its next byte would go on with a start that
no byte goes on with. -/
theorem IsFault.length_le {bad rest bad' rest' : List UInt8} (h : IsFault bad rest)
    (h' : IsFault bad' rest') (heq : bad ++ rest = bad' ++ rest') : bad'.length ≤ bad.length := by
  refine Nat.not_lt.mp fun hlt => ?_
  obtain ⟨tail, rfl⟩ : bad <+: bad' :=
    List.prefix_of_prefix_length_le ⟨rest, rfl⟩ ⟨rest', heq.symm⟩ (by omega)
  rw [List.append_assoc, List.append_cancel_left_eq] at heq
  cases tail with
  | nil => simp at hlt
  | cons b tail =>
    have hpos := List.length_pos_iff.mpr h.ne_nil
    have hstarts := h'.starts.resolve_left (by rw [List.length_append, List.length_cons]; omega)
    exact h.longest b _ heq (hstarts.mono ⟨tail, by rw [List.append_assoc]; rfl⟩)

theorem IsFault.unique {bad rest bad' rest' : List UInt8} (h : IsFault bad rest)
    (h' : IsFault bad' rest') (heq : bad ++ rest = bad' ++ rest') : bad = bad' ∧ rest = rest' :=
  List.append_inj heq (Nat.le_antisymm (h'.length_le h heq.symm) (h.length_le h' heq))

/-! ## Texts -/

/-- How bytes show as text: characters as they are spelled, and the replacement character for each
fault between them. -/
inductive Shows : List UInt8 → List Char → Prop
  | nil : Shows [] []
  | char {rest : List UInt8} {text : List Char} (c : Char) (h : Shows rest text) :
      Shows (String.utf8EncodeChar c ++ rest) (c :: text)
  | fault {bad rest : List UInt8} {text : List Char} (hbad : IsFault bad rest)
      (h : Shows rest text) : Shows (bad ++ rest) ('\ufffd' :: text)

theorem decodeLossy_char {a : UInt8} {rest rest' : List UInt8} {c : Char}
    (h : next a rest = .char c rest') : decodeLossy (a :: rest) = c :: decodeLossy rest' := by
  rw [decodeLossy]
  split
  · next h' =>
    obtain ⟨rfl, rfl⟩ := Utf8Step.char.inj (h'.symm.trans h)
    rfl
  · next h' => cases h'.symm.trans h

theorem decodeLossy_fault {a : UInt8} {rest rest' : List UInt8} {n : Nat} {cause : Utf8Cause}
    (h : next a rest = .fault n cause rest') :
    decodeLossy (a :: rest) = '\ufffd' :: decodeLossy rest' := by
  rw [decodeLossy]
  split
  · next h' => cases h'.symm.trans h
  · next h' =>
    obtain ⟨-, -, rfl⟩ := Utf8Step.fault.inj (h'.symm.trans h)
    rfl

theorem shows_decodeLossy (bytes : List UInt8) : Shows bytes (decodeLossy bytes) := by
  fun_induction decodeLossy bytes with
  | case1 => exact .nil
  | case2 a rest c rest' h _ ih =>
    rw [eq_append_of_next h]
    exact .char c ih
  | case3 a rest n cause rest' h _ ih =>
    obtain ⟨bad, hcut, hbad⟩ := exists_isFault_of_next h
    rw [hcut]
    exact .fault hbad ih

theorem Shows.eq_decodeLossy {bytes : List UInt8} {text : List Char} (h : Shows bytes text) :
    text = decodeLossy bytes := by
  induction h with
  | nil => rw [decodeLossy]
  | @char rest text c _ ih =>
    obtain ⟨a, more, hc, hnext⟩ := next_utf8EncodeChar c rest
    rw [hc, List.cons_append, decodeLossy_char hnext, ih]
  | @fault bad rest text hbad _ ih =>
    obtain ⟨a, more, rfl⟩ := List.exists_cons_of_ne_nil hbad.ne_nil
    rw [List.cons_append]
    cases hnext : next a (more ++ rest) with
    | char c rest' =>
      exact absurd ⟨rest', (eq_append_of_next hnext).symm⟩ (hbad.no_char c)
    | fault n cause rest' =>
      obtain ⟨bad', hcut, hbad'⟩ := exists_isFault_of_next hnext
      obtain ⟨-, rfl⟩ := hbad.unique hbad' hcut
      rw [decodeLossy_fault hnext, ih]

theorem shows_iff {bytes : List UInt8} {text : List Char} :
    Shows bytes text ↔ text = decodeLossy bytes :=
  ⟨Shows.eq_decodeLossy, fun h => h ▸ shows_decodeLossy bytes⟩

end HdlLint.Text
