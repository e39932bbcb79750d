import HdlLint.Text.Utf8

/-!
# Reading what was written

The bytes of a text are read back as its characters, `decode_toUTF8`: `Utf8.next` takes the bytes of
one character off the front, whatever stands behind them (`next_utf8EncodeChar`). The bytes are
compared as numbers, one lemma for each length of a character (`next_two` to `next_four`).
-/

namespace HdlLint.Text

namespace Utf8

theorem toNat_ofNat_of_lt {n : Nat} (h : n < 256) : (UInt8.ofNat n).toNat = n := by
  rw [UInt8.toNat_ofNat']
  exact Nat.mod_eq_of_lt h

theorem isContinuation_iff (b : UInt8) :
    isContinuation b = true ↔ 0x80 ≤ b.toNat ∧ b.toNat < 0xc0 := by
  simp only [isContinuation, Bool.and_eq_true, decide_eq_true_eq, UInt8.le_iff_toNat_le,
    UInt8.lt_iff_toNat_lt, UInt8.reduceToNat]

theorem isSecond_iff (a b : UInt8) :
    isSecond a b = true ↔ (0x80 ≤ b.toNat ∧ b.toNat < 0xc0) ∧
      (a.toNat = 0xe0 → 0xa0 ≤ b.toNat) ∧ (a.toNat = 0xed → b.toNat < 0xa0) ∧
      (a.toNat = 0xf0 → 0x90 ≤ b.toNat) ∧ (a.toNat = 0xf4 → b.toNat < 0x90) := by
  simp only [isSecond, Bool.and_eq_true, isContinuation_iff, Bool.not_eq_true',
    Bool.and_eq_false_iff, beq_eq_false_iff_ne, decide_eq_false_iff_not, UInt8.le_iff_toNat_le,
    UInt8.lt_iff_toNat_lt, ne_eq, ← UInt8.toNat_inj, UInt8.reduceToNat]
  omega

theorem not_lt_of_le {a b : UInt8} (h : b.toNat ≤ a.toNat) : ¬a < b :=
  fun hlt => Nat.not_lt.mpr h (UInt8.lt_iff_toNat_lt.mp hlt)

theorem not_invalidStart {a : UInt8} (h : 0xc2 ≤ a.toNat ∧ a.toNat < 0xf5) :
    ¬(a < 0xc2 || 0xf5 ≤ a) = true := by
  simp only [Bool.or_eq_true, decide_eq_true_eq, UInt8.lt_iff_toNat_lt, UInt8.le_iff_toNat_le,
    UInt8.reduceToNat]
  omega

/-! ## Characters by their length -/

theorem next_one {a : UInt8} (ha : a.toNat < 0x80) (rest : List UInt8) :
    next a rest = .char (Char.ofNat a.toNat) rest := by
  rw [next.eq_def]
  exact if_pos (UInt8.lt_iff_toNat_lt.mpr ha)

theorem next_two {a b : UInt8} (ha : 0xc2 ≤ a.toNat ∧ a.toNat < 0xe0)
    (hb : isContinuation b = true) (rest : List UInt8) :
    next a (b :: rest) = .char (Char.ofNat (a.toNat % 32 * 64 + payload b)) rest := by
  have hs : isSecond a b = true := by
    rw [isContinuation_iff] at hb
    rw [isSecond_iff]
    omega
  have h₁ : ¬a < 0x80 := not_lt_of_le (Nat.le_trans (by decide) ha.1)
  have h₂ : a < 0xe0 := UInt8.lt_iff_toNat_lt.mpr ha.2
  rw [next.eq_def, if_neg h₁, if_neg (not_invalidStart (by omega))]
  simp only [hs, h₂, Bool.not_true, Bool.false_eq_true, if_false, if_true]

theorem next_three {a b c : UInt8} (ha : 0xe0 ≤ a.toNat ∧ a.toNat < 0xf0)
    (hb : isSecond a b = true) (hc : isContinuation c = true) (rest : List UInt8) :
    next a (b :: c :: rest) =
      .char (Char.ofNat ((a.toNat % 16 * 64 + payload b) * 64 + payload c)) rest := by
  have h₁ : ¬a < 0x80 := not_lt_of_le (Nat.le_trans (by decide) ha.1)
  have h₂ : ¬a < 0xe0 := not_lt_of_le ha.1
  have h₃ : a < 0xf0 := UInt8.lt_iff_toNat_lt.mpr ha.2
  rw [next.eq_def, if_neg h₁, if_neg (not_invalidStart (by omega))]
  simp only [hb, hc, h₂, h₃, Bool.not_true, Bool.false_eq_true, if_false, if_true]

theorem next_four {a b c d : UInt8} (ha : 0xf0 ≤ a.toNat ∧ a.toNat < 0xf5)
    (hb : isSecond a b = true) (hc : isContinuation c = true) (hd : isContinuation d = true)
    (rest : List UInt8) :
    next a (b :: c :: d :: rest) =
      .char (Char.ofNat
        (((a.toNat % 8 * 64 + payload b) * 64 + payload c) * 64 + payload d)) rest := by
  have h₁ : ¬a < 0x80 := not_lt_of_le (Nat.le_trans (by decide) ha.1)
  have h₂ : ¬a < 0xe0 := not_lt_of_le (Nat.le_trans (by decide) ha.1)
  have h₃ : ¬a < 0xf0 := not_lt_of_le ha.1
  rw [next.eq_def, if_neg h₁, if_neg (not_invalidStart (by omega))]
  simp only [hb, hc, hd, h₂, h₃, Bool.not_true, Bool.false_eq_true, if_false]

/-! ## Characters as they are written -/

/-- The numbers of the characters: no surrogates, and none beyond the last one. -/
theorem val_bounds (c : Char) :
    c.val.toNat < 0x110000 ∧ ¬(0xd800 ≤ c.val.toNat ∧ c.val.toNat < 0xe000) := by
  have h : c.val.toNat < 0xd800 ∨ (0xdfff < c.val.toNat ∧ c.val.toNat < 0x110000) := c.valid
  omega

theorem char_ofNat_eq {c : Char} {n : Nat} (h : n = c.val.toNat) : Char.ofNat n = c := by
  rw [h]
  exact Char.ofNat_toNat c

theorem toNat_continuation (n : Nat) : (UInt8.ofNat (n % 64 + 0x80)).toNat = n % 64 + 0x80 :=
  toNat_ofNat_of_lt (by omega)

theorem isContinuation_ofNat (n : Nat) : isContinuation (UInt8.ofNat (n % 64 + 0x80)) = true := by
  rw [isContinuation_iff, toNat_continuation]
  omega

theorem payload_ofNat (n : Nat) : payload (UInt8.ofNat (n % 64 + 0x80)) = n % 64 := by
  rw [payload, toNat_continuation]
  omega

theorem next_utf8EncodeChar (c : Char) (rest : List UInt8) :
    ∃ first bytes, String.utf8EncodeChar c = first :: bytes ∧
      next first (bytes ++ rest) = .char c rest := by
  obtain ⟨hc, hs⟩ := val_bounds c
  fun_cases String.utf8EncodeChar c
  case case1 v h =>
    have ha : (UInt8.ofNat v).toNat = v := toNat_ofNat_of_lt (by omega)
    refine ⟨_, _, rfl, ?_⟩
    rw [List.nil_append, next_one (by omega), ha, char_ofNat_eq (c := c) rfl]
  case case2 v h₁ h₂ =>
    have ha : (UInt8.ofNat (v / 64 % 32 + 0xc0)).toNat = v / 64 % 32 + 0xc0 :=
      toNat_ofNat_of_lt (by omega)
    refine ⟨_, _, rfl, ?_⟩
    rw [List.cons_append, List.nil_append, next_two (by omega) (isContinuation_ofNat v), ha,
      payload_ofNat, char_ofNat_eq (c := c) (by omega)]
  case case3 v h₁ h₂ h₃ =>
    have ha : (UInt8.ofNat (v / 4096 % 16 + 0xe0)).toNat = v / 4096 % 16 + 0xe0 :=
      toNat_ofNat_of_lt (by omega)
    have hb := toNat_continuation (v / 64)
    refine ⟨_, _, rfl, ?_⟩
    rw [List.cons_append, List.cons_append, List.nil_append,
      next_three (by omega) ((isSecond_iff _ _).mpr (by omega)) (isContinuation_ofNat v), ha,
      payload_ofNat, payload_ofNat, char_ofNat_eq (c := c) (by omega)]
  case case4 v h₁ h₂ h₃ =>
    have ha : (UInt8.ofNat (v / 262144 % 8 + 0xf0)).toNat = v / 262144 % 8 + 0xf0 :=
      toNat_ofNat_of_lt (by omega)
    have hb := toNat_continuation (v / 4096)
    refine ⟨_, _, rfl, ?_⟩
    rw [List.cons_append, List.cons_append, List.cons_append, List.nil_append,
      next_four (by omega) ((isSecond_iff _ _).mpr (by omega)) (isContinuation_ofNat (v / 64))
        (isContinuation_ofNat v),
      ha, payload_ofNat, payload_ofNat, payload_ofNat, char_ofNat_eq (c := c) (by omega)]

end Utf8

open Utf8

theorem decode_go_flatMap (cs : List Char) (position : Nat) :
    decode.go position (cs.flatMap String.utf8EncodeChar) = .ok cs := by
  induction cs generalizing position with
  | nil => rw [List.flatMap_nil, decode.go]
  | cons c cs ih =>
    obtain ⟨first, bytes, hc, hn⟩ := next_utf8EncodeChar c (cs.flatMap String.utf8EncodeChar)
    rw [List.flatMap_cons, hc, List.cons_append, decode.go]
    split
    · rename_i c' rest' h
      obtain ⟨rfl, rfl⟩ := Utf8Step.char.inj (hn.symm.trans h)
      rw [ih]
      rfl
    · rename_i h
      exact absurd (hn.symm.trans h) (by simp)

/-! ## Bytes of a string -/

theorem toList_loop (bytes : ByteArray) (i : Nat) (acc : List UInt8) :
    ByteArray.toList.loop bytes i acc = acc.reverse ++ bytes.data.toList.drop i := by
  fun_induction ByteArray.toList.loop bytes i acc with
  | case1 i acc h ih =>
    have hi : i < bytes.data.toList.length := h
    have hb : bytes.get! i = bytes.data.toList[i] := getElem!_pos bytes.data i h
    rw [ih, List.reverse_cons, List.append_assoc, List.drop_eq_getElem_cons hi, hb]
    rfl
  | case2 i acc h =>
    have hi : bytes.data.toList.length ≤ i := Nat.not_lt.mp h
    rw [List.drop_eq_nil_of_le hi, List.append_nil]

theorem toUTF8_toList (s : String) :
    s.toUTF8.toList = s.toList.flatMap String.utf8EncodeChar := by
  have h : s.toUTF8 = (s.toList.flatMap String.utf8EncodeChar).toByteArray :=
    String.utf8Encode_toList.symm
  rw [h, ByteArray.toList, toList_loop]
  exact List.toList_data_toByteArray

theorem decode_toUTF8 (s : String) : decode s.toUTF8.toList = .ok s.toList := by
  rw [toUTF8_toList]
  exact decode_go_flatMap s.toList 0

end HdlLint.Text
