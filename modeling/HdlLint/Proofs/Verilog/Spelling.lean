import HdlLint.Proofs.Verilog.Word
import HdlLint.Text.Blank

/-!
# The characters of words

A word lies within its text and is spelled in visible characters of ASCII, but for strings, which
are so at both ends, and line continuations (`word_spelling`). The words that are names are plain
(`isPlainName`) or escaped (`Named`).
-/

namespace HdlLint.Verilog.Lexer

/-! ## Visible characters -/

theorem isEscapedPart_iff {c : Char} :
    isEscapedPart c = true ↔ 0x20 < c.toNat ∧ c.toNat < 0x7f := by
  rw [isEscapedPart, Bool.and_eq_true, decide_eq_true_eq, decide_eq_true_eq]

theorem isBlank_of_isEscapedPart {c : Char} (h : isEscapedPart c = true) :
    Text.isBlank c = false := by
  rw [isEscapedPart_iff] at h
  rw [Bool.eq_false_iff]
  simp only [Text.isBlank, ne_eq, Bool.or_eq_true, Bool.and_eq_true, decide_eq_true_eq, beq_iff_eq]
  omega

theorem isEscapedPart_of_isDigitPart {c : Char} (h : isDigitPart c = true) :
    isEscapedPart c = true := by
  rw [isDigitPart, Bool.or_eq_true, beq_iff_eq] at h
  rcases h with h | rfl
  · simp only [Char.isDigit, Bool.and_eq_true, decide_eq_true_eq, UInt32.le_iff_toNat_le] at h
    rw [isEscapedPart_iff]
    exact ⟨Nat.lt_of_lt_of_le (by decide) h.1, Nat.lt_of_le_of_lt h.2 (by decide)⟩
  · rfl

theorem isEscapedPart_of_isDigit {c : Char} (h : c.isDigit = true) : isEscapedPart c = true :=
  isEscapedPart_of_isDigitPart (by rw [isDigitPart, h]; rfl)

theorem isEscapedPart_of_isAlpha {c : Char} (h : c.isAlpha = true) : isEscapedPart c = true := by
  have hcase : (decide (c.val ≥ 'A'.val ∧ c.val ≤ 'Z'.val) ||
      (decide (c.val ≥ 'a'.val) && decide (c.val ≤ 'z'.val))) = true := h
  simp only [Bool.or_eq_true, Bool.and_eq_true, decide_eq_true_eq, UInt32.le_iff_toNat_le,
    ge_iff_le] at hcase
  rw [isEscapedPart_iff]
  rcases hcase with h | h
  · exact ⟨Nat.lt_of_lt_of_le (by decide) h.1, Nat.lt_of_le_of_lt h.2 (by decide)⟩
  · exact ⟨Nat.lt_of_lt_of_le (by decide) h.1, Nat.lt_of_le_of_lt h.2 (by decide)⟩

theorem isNamePart_of_isNameStart {c : Char} (h : isNameStart c = true) : isNamePart c = true := by
  rw [isNameStart, Bool.or_eq_true] at h
  rw [isNamePart, Char.isAlphanum]
  rcases h with h | h <;> rw [h]
  · rfl
  · rw [Bool.or_true, Bool.true_or]

theorem isEscapedPart_of_isNamePart {c : Char} (h : isNamePart c = true) :
    isEscapedPart c = true := by
  simp only [isNamePart, Char.isAlphanum, Bool.or_eq_true, beq_iff_eq] at h
  rcases h with ((h | h) | rfl) | rfl
  · exact isEscapedPart_of_isAlpha h
  · exact isEscapedPart_of_isDigit h
  · rfl
  · rfl

/-- Whether the first characters of a text are there and visible. -/
def Spelled (n : Nat) (text : List Char) : Prop :=
  n ≤ text.length ∧ ∀ c ∈ text.take n, isEscapedPart c = true

theorem Spelled.zero (text : List Char) : Spelled 0 text :=
  ⟨Nat.zero_le _, nofun⟩

theorem Spelled.cons {c : Char} {n : Nat} {text : List Char} (hc : isEscapedPart c = true)
    (h : Spelled n text) : Spelled (n + 1) (c :: text) :=
  ⟨Nat.succ_le_succ h.1, List.forall_mem_cons.mpr ⟨hc, h.2⟩⟩

theorem Spelled.add {m n : Nat} {text : List Char} (hm : Spelled m text)
    (hn : Spelled n (text.drop m)) : Spelled (m + n) text := by
  refine ⟨?_, ?_⟩
  · have := hn.1
    rw [List.length_drop] at this
    have := hm.1
    omega
  · rw [List.take_add, List.forall_mem_append]
    exact ⟨hm.2, hn.2⟩

theorem spelled_of_prefix {s text : List Char} (h : s <+: text)
    (hs : ∀ c ∈ s, isEscapedPart c = true) : Spelled s.length text := by
  refine ⟨h.length_le, ?_⟩
  rw [← List.prefix_iff_eq_take.mp h]
  exact hs

theorem Spelled.takeWhile {p : Char → Bool} (hp : ∀ c, p c = true → isEscapedPart c = true)
    (text : List Char) : Spelled (text.takeWhile p).length text :=
  spelled_of_prefix (List.takeWhile_prefix p) fun c hc => hp c (Text.mem_takeWhile c hc)

/-! ## Numbers -/

theorem spelled_fraction (text : List Char) : Spelled (fraction text).1 text := by
  fun_cases fraction text with
  | case1 rest digits =>
    rw [Nat.add_comm]
    exact .cons rfl (.takeWhile (fun _ => isEscapedPart_of_isDigitPart) rest)
  | case2 => exact .zero _

theorem spelled_exponentLength (text : List Char) : Spelled (exponentLength text) text := by
  have hletter : ∀ e : Char, (e == 'e' || e == 'E') = true → isEscapedPart e = true := by
    intro e he
    rw [Bool.or_eq_true, beq_iff_eq, beq_iff_eq] at he
    rcases he with rfl | rfl <;> rfl
  fun_cases exponentLength text with
  | case1 e he sign d more hs =>
    rw [Bool.and_eq_true, Bool.or_eq_true, beq_iff_eq, beq_iff_eq] at hs
    have hsign : isEscapedPart sign = true := by rcases hs.1 with rfl | rfl <;> rfl
    rw [Nat.add_comm]
    exact .cons (hletter e he) (.cons hsign (.cons (isEscapedPart_of_isDigit hs.2)
      (.takeWhile (fun _ => isEscapedPart_of_isDigitPart) more)))
  | case2 e he sign d more hs hd =>
    rw [Nat.add_comm]
    exact .cons (hletter e he) (.takeWhile (fun _ => isEscapedPart_of_isDigitPart) _)
  | case3 => exact .zero _
  | case4 e he d hd => exact .cons (hletter e he) (.cons (isEscapedPart_of_isDigit hd) (.zero _))
  | case5 => exact .zero _
  | case6 => exact .zero _
  | case7 => exact .zero _
  | case8 => exact .zero _

theorem spelled_timeUnitLength (text : List Char) : Spelled (timeUnitLength text) text := by
  fun_cases timeUnitLength text with
  | case1 => exact .zero _
  | case2 rest => exact .cons rfl (.zero _)
  | case3 c rest _ hc =>
    rw [Bool.and_eq_true] at hc
    have hunit : ∀ c ∈ ['m', 'u', 'n', 'p', 'f'], isEscapedPart c = true :=
      List.all_eq_true.mp (by decide)
    exact .cons (hunit c (List.contains_iff_mem.mp hc.1)) (.cons rfl (.zero _))
  | case4 => exact .zero _
  | case5 => exact .zero _

theorem spelled_number (text : List Char) : Spelled (number text).length text := by
  rw [number]
  split
  · rename_i h
    exact spelled_of_prefix (s := "1step".toList) (List.isPrefixOf_iff_prefix.mp h)
      (List.all_eq_true.mp (by decide))
  · exact ((((Spelled.takeWhile (fun _ => isEscapedPart_of_isDigitPart) text).add
      (spelled_fraction _)).add (spelled_exponentLength _)).add (spelled_timeUnitLength _))

/-! ## Marks and symbols -/

theorem escapedWord_pos (cls : LexemeClass) (marks fault : Nat) (name : List Char) :
    0 < (escapedWord cls marks fault name).length := by
  cases name with
  | nil => exact Nat.one_pos
  | cons c name => exact Nat.succ_pos _

theorem backtick_pos (text : List Char) : 0 < (backtick text).length := by
  rw [backtick.eq_def]
  split
  · exact Nat.two_pos
  · exact Nat.two_pos
  · exact Nat.succ_pos 3
  · exact escapedWord_pos .directive 2 0 _
  · exact escapedWord_pos .directive 1 0 _

theorem spelled_escapedWord {cls : LexemeClass} {marks fault : Nat} {p : Char → Bool}
    (hp : ∀ c, p c = true → isEscapedPart c = true) (text : List Char) (hmarks : Spelled marks text)
    (hf : (escapedWord cls marks fault ((text.drop marks).takeWhile p)).faults = []) :
    Spelled (escapedWord cls marks fault ((text.drop marks).takeWhile p)).length text := by
  have hname := hmarks.add (.takeWhile hp (text.drop marks))
  revert hf hname
  cases (text.drop marks).takeWhile p with
  | nil => nofun
  | cons c name => exact fun _ h => h

theorem spelled_backtick {text : List Char} (hf : (backtick text).faults = []) :
    Spelled (backtick text).length ('\x60' :: text) := by
  by_cases hname : ∀ c ∈ text.head?, c ≠ '"' ∧ c ≠ '\x60' ∧ c ≠ '\\'
  · rw [backtick_name hname] at hf ⊢
    exact spelled_escapedWord (fun _ => isEscapedPart_of_isNamePart) ('\x60' :: text)
      (.cons rfl (.zero _)) hf
  · cases text with
    | nil => exact absurd nofun hname
    | cons c v =>
      by_cases hq : c = '"'
      · subst hq
        exact .cons rfl (.cons rfl (.zero _))
      by_cases ht : c = '\x60'
      · subst ht
        exact .cons rfl (.cons rfl (.zero _))
      by_cases hb : c = '\\'
      · subst hb
        by_cases hw : ∃ w, v = '\x60' :: '"' :: w
        · obtain ⟨w, rfl⟩ := hw
          exact .cons rfl (.cons rfl (.cons rfl (.cons rfl (.zero _))))
        · rw [backtick_backslash fun w he => hw ⟨w, he⟩] at hf ⊢
          exact spelled_escapedWord (fun _ h => h) ('\x60' :: '\\' :: v)
            (.cons rfl (.cons rfl (.zero _))) hf
      · exact absurd (fun d hd => Option.some.inj hd ▸ ⟨hq, ht, hb⟩) hname

theorem spelled_backslash {text : List Char} (h : ∀ c ∈ text.head?, Scan.endsLine c = false)
    (hf : (backslash text).faults = []) : Spelled (backslash text).length ('\\' :: text) := by
  rw [backslash_name h] at hf ⊢
  exact spelled_escapedWord (fun _ h => h) ('\\' :: text) (.cons rfl (.zero _)) hf

theorem spelled_symbols : ∀ s ∈ symbols, s ≠ "" ∧ ∀ c ∈ s.toList, isEscapedPart c = true := by
  have hall : ∀ s ∈ symbols, s ≠ "" ∧ s.toList.all isEscapedPart = true := by decide +kernel
  exact fun s hs => (hall s hs).imp_right List.all_eq_true.mp

theorem spelled_symbol? {text : List Char} {w : Word} (h : symbol? text = some w) :
    0 < w.length ∧ Spelled w.length text := by
  rw [symbol?, Option.map_eq_some_iff] at h
  obtain ⟨s, hs, rfl⟩ := h
  obtain ⟨hne, hspelled⟩ := spelled_symbols s (List.mem_of_find?_eq_some hs)
  have hprefix := List.find?_some hs
  rw [Text.afterStart?_isSome] at hprefix
  refine ⟨Nat.pos_of_ne_zero fun hz => hne ?_, spelled_of_prefix hprefix hspelled⟩
  exact String.toList_eq_nil_iff.mp (List.length_eq_zero_iff.mp hz)

theorem isEscapedPart_of_contains {cs : List Char} (hcs : cs.all isEscapedPart = true)
    {c : Char} (h : cs.contains c = true) : isEscapedPart c = true :=
  List.all_eq_true.mp hcs c (List.contains_iff_mem.mp h)

theorem spelled_apostropheOne? {c : Char} {w : Word} (h : apostrophe?.apostropheOne? c = some w)
    (v : List Char) : 0 < w.length ∧ Spelled w.length ('\'' :: c :: v) := by
  rw [apostrophe?.apostropheOne?] at h
  split at h
  · rename_i hc
    cases h
    exact ⟨Nat.succ_pos _, .cons rfl (.cons (isEscapedPart_of_contains (by decide) hc) (.zero _))⟩
  · split at h
    · rename_i hc
      cases h
      exact ⟨Nat.succ_pos _, .cons rfl (.cons (isEscapedPart_of_contains (by decide) hc) (.zero _))⟩
    · cases h

theorem spelled_apostrophe? {text : List Char} {w : Word} (h : apostrophe? text = some w) :
    0 < w.length ∧ Spelled w.length ('\'' :: text) := by
  match text with
  | [] => cases h
  | [c] => exact spelled_apostropheOne? h []
  | s :: b :: v =>
    rw [apostrophe?] at h
    split at h
    · rename_i hs
      rw [Bool.and_eq_true, Bool.or_eq_true, beq_iff_eq, beq_iff_eq] at hs
      have hs' : isEscapedPart s = true := by rcases hs.1 with rfl | rfl <;> rfl
      cases h
      exact ⟨Nat.succ_pos _,
        .cons rfl (.cons hs' (.cons (isEscapedPart_of_contains (by decide) hs.2) (.zero _)))⟩
    · exact spelled_apostropheOne? h (b :: v)

theorem spelled_markWord {c : Char} {v : List Char} (hf : (markWord c v).faults = []) :
    Spelled (markWord c v).length (c :: v) := by
  rw [markWord] at hf ⊢
  split at hf
  · rename_i hs
    rw [Bool.and_eq_true, beq_iff_eq] at hs
    rw [if_pos (by rw [Bool.and_eq_true, beq_iff_eq]; exact hs), hs.1, Nat.add_comm]
    exact .cons rfl (.takeWhile (fun _ => isEscapedPart_of_isNamePart) v)
  · rename_i hs
    rw [if_neg hs]
    cases ha : (if c == '\'' then apostrophe? v else none) with
    | some w =>
      split at ha
      · rename_i hc
        rw [beq_iff_eq] at hc
        subst hc
        exact (spelled_apostrophe? ha).2
      · cases ha
    | none =>
      rw [ha] at hf
      cases hsym : symbol? (c :: v) with
      | none =>
        rw [hsym] at hf
        cases hf
      | some w => exact (spelled_symbol? hsym).2

/-! ## Words -/

/-- How a word stands in its text: it lies in it, it starts with a visible character, and it ends
with one unless it continues a line. -/
structure Spelling (w : Word) (text : List Char) : Prop where
  pos : 0 < w.length
  le : w.length ≤ text.length
  head : ∀ c ∈ text.head?, isEscapedPart c = true
  last : w.cls ≠ .lineContinuation → ∀ c ∈ (text.take w.length).getLast?, isEscapedPart c = true

theorem Spelling.of_spelled {w : Word} {c : Char} {v : List Char} (hpos : 0 < w.length)
    (h : Spelled w.length (c :: v)) : Spelling w (c :: v) where
  pos := hpos
  le := h.1
  head := by
    intro d hd
    refine h.2 d (List.mem_of_mem_head? ?_)
    rw [List.head?_take, if_neg (Nat.pos_iff_ne_zero.mp hpos)]
    exact hd
  last := fun _ d hd => h.2 d (List.mem_of_getLast? hd)

theorem stringLength_spec {text : List Char} (h : (stringLength text).2 = true) :
    (stringLength text).1 ≤ text.length ∧
      (text.take (stringLength text).1).getLast? = some '"' := by
  revert h
  -- a closed string is not empty, so its last character is that of what follows its first one
  have hcons : ∀ (c : Char) {n : Nat} {t : List Char}, (t.take n).getLast? = some '"' →
      ((c :: t).take (n + 1)).getLast? = some '"' := by
    intro c n t ht
    rw [List.take_succ_cons, List.getLast?_cons, ht]
    rfl
  fun_induction stringLength text with
  | case1 rest => exact fun _ => ⟨Nat.succ_pos _, rfl⟩
  | case2 rest n closed hn ih =>
    intro h
    rw [hn] at ih
    obtain ⟨hle, hlast⟩ := ih h
    exact ⟨Nat.succ_le_succ (Nat.succ_le_succ (Nat.succ_le_succ hle)),
      hcons _ (hcons _ (hcons _ hlast))⟩
  | case3 c rest hne n closed hn ih =>
    intro h
    rw [hn] at ih
    obtain ⟨hle, hlast⟩ := ih h
    exact ⟨Nat.succ_le_succ (Nat.succ_le_succ hle), hcons _ (hcons _ hlast)⟩
  | case4 => exact fun h => absurd h Bool.false_ne_true
  | case5 c rest _ _ _ _ hc => exact fun h => absurd h Bool.false_ne_true
  | case6 c rest hquote hcr hesc hslash hc n closed hn ih =>
    intro h
    rw [hn] at ih
    obtain ⟨hle, hlast⟩ := ih h
    exact ⟨Nat.succ_le_succ hle, hcons _ hlast⟩
  | case7 => exact fun h => absurd h Bool.false_ne_true

theorem word_backtick (v : List Char) : word ('\x60' :: v) = backtick v := rfl

theorem word_backslash (v : List Char) : word ('\\' :: v) = backslash v := rfl

theorem spelling_string {v : List Char} (hf : (word ('"' :: v)).faults = []) :
    Spelling (word ('"' :: v)) ('"' :: v) := by
  rw [word_string] at hf ⊢
  cases hc : (stringLength v).2 with
  | false =>
    rw [hc] at hf
    exact absurd (List.append_eq_nil_iff.mp hf).2 (List.cons_ne_nil _ _)
  | true =>
    obtain ⟨hle, hlast⟩ := stringLength_spec hc
    refine ⟨by rw [Nat.add_comm]; exact Nat.succ_pos _, ?_, ?_, fun _ c hcl => ?_⟩
    · rw [Nat.add_comm]
      exact Nat.succ_le_succ hle
    · exact fun c hc => Option.some.inj hc ▸ rfl
    · rw [Nat.add_comm, List.take_succ_cons, List.getLast?_cons, hlast] at hcl
      exact Option.some.inj hcl ▸ rfl

theorem spelling_lineEnd {c : Char} (hc : Scan.endsLine c = true) (v : List Char) :
    Spelling (word ('\\' :: c :: v)) ('\\' :: c :: v) ∧
      (word ('\\' :: c :: v)).cls = .lineContinuation := by
  show Spelling (backslash (c :: v)) _ ∧ (backslash (c :: v)).cls = .lineContinuation
  have hspelling : ∀ n, 0 < n → n ≤ v.length + 2 →
      Spelling ⟨.lineContinuation, n, [], []⟩ ('\\' :: c :: v) := fun n hpos hle =>
    ⟨hpos, hle, fun d hd => Option.some.inj hd ▸ rfl, fun h => absurd rfl h⟩
  rw [backslash.eq_def]
  split
  · rename_i h
    obtain ⟨-, rfl⟩ := List.cons.inj h
    exact ⟨hspelling 3 (by decide) (Nat.le_add_left 3 _), rfl⟩
  · exact ⟨hspelling 2 (by decide) (Nat.le_add_left 2 _), rfl⟩
  · exact ⟨hspelling 2 (by decide) (Nat.le_add_left 2 _), rfl⟩
  · rename_i hr hn
    rcases endsLine_iff.mp hc with rfl | rfl
    · exact absurd rfl (hn v)
    · exact absurd rfl (hr v)

theorem number_pos {c : Char} (hc : c.isDigit = true) (v : List Char) :
    0 < (number (c :: v)).length := by
  rw [number]
  split
  · exact Nat.succ_pos 4
  · have hpart : isDigitPart c = true := by rw [isDigitPart, hc]; rfl
    show 0 < ((c :: v).takeWhile isDigitPart).length + _ + _ + _
    rw [List.takeWhile_cons_of_pos hpart, List.length_cons]
    omega

theorem markWord_pos (c : Char) (v : List Char) : 0 < (markWord c v).length := by
  rw [markWord]
  split
  · exact Nat.lt_of_lt_of_le Nat.one_pos (Nat.le_add_right 1 _)
  · cases ha : (if c == '\'' then apostrophe? v else none) with
    | some w =>
      split at ha
      · exact (spelled_apostrophe? ha).1
      · cases ha
    | none =>
      cases hsym : symbol? (c :: v) with
      | none => exact Nat.one_pos
      | some w => exact (spelled_symbol? hsym).1

theorem backslash_pos (text : List Char) : 0 < (backslash text).length := by
  rw [backslash.eq_def]
  split
  · exact Nat.succ_pos 2
  · exact Nat.two_pos
  · exact Nat.two_pos
  · exact escapedWord_pos .identifier 1 1 _

theorem word_pos (c : Char) (v : List Char) : 0 < (word (c :: v)).length := by
  cases hn : isNameStart c with
  | true =>
    rw [word_name hn]
    exact Nat.succ_pos _
  | false =>
  cases hd : c.isDigit with
  | true =>
    rw [word_number hn hd]
    exact number_pos hd v
  | false =>
  by_cases hq : c = '"'
  · subst hq
    exact Nat.lt_of_lt_of_le Nat.one_pos (Nat.le_add_right 1 _)
  by_cases ht : c = '\x60'
  · subst ht
    exact backtick_pos v
  by_cases hb : c = '\\'
  · subst hb
    exact backslash_pos v
  · rw [word_mark hn hd hq ht hb]
    exact markWord_pos c v

theorem word_spelling {c : Char} {v : List Char} (hf : (word (c :: v)).faults = []) :
    Spelling (word (c :: v)) (c :: v) := by
  have hpos := word_pos c v
  cases hn : isNameStart c with
  | true =>
    rw [word_name hn] at hpos ⊢
    exact .of_spelled hpos (.cons (isEscapedPart_of_isNamePart (isNamePart_of_isNameStart hn))
      (.takeWhile (fun _ => isEscapedPart_of_isNamePart) v))
  | false =>
  cases hd : c.isDigit with
  | true =>
    rw [word_number hn hd] at hpos ⊢
    exact .of_spelled hpos (spelled_number _)
  | false =>
  by_cases hq : c = '"'
  · subst hq
    exact spelling_string hf
  by_cases ht : c = '\x60'
  · subst ht
    exact .of_spelled hpos (spelled_backtick hf)
  by_cases hb : c = '\\'
  · subst hb
    cases v with
    | nil => cases hf
    | cons d v =>
      cases hl : Scan.endsLine d with
      | true => exact (spelling_lineEnd hl v).1
      | false =>
        exact .of_spelled hpos (spelled_backslash (fun e he => Option.some.inj he ▸ hl) hf)
  · rw [word_mark hn hd hq ht hb] at hf hpos ⊢
    exact .of_spelled hpos (spelled_markWord hf)

/-! ## Classes -/

/-- A class of words that neither names, nor line continuations, nor the end of a file have. -/
def isMark : LexemeClass → Bool
  | .identifier | .keyword | .lineContinuation | .endOfFile => false
  | _ => true

theorem isMark_number (text : List Char) : isMark (number text).cls = true := by
  rw [number]
  split
  · rfl
  · dsimp only
    split
    · rfl
    · split <;> rfl

theorem isMark_escapedWord (cls : LexemeClass) (h : isMark cls = true) (marks fault : Nat)
    (name : List Char) : isMark (escapedWord cls marks fault name).cls = true := by
  cases name with
  | nil => rfl
  | cons c name => exact h

theorem isMark_backtick (text : List Char) : isMark (backtick text).cls = true := by
  rw [backtick.eq_def]
  split
  · rfl
  · rfl
  · rfl
  · exact isMark_escapedWord .directive rfl 2 0 _
  · exact isMark_escapedWord .directive rfl 1 0 _

theorem isMark_apostropheOne? {c : Char} {w : Word} (h : apostrophe?.apostropheOne? c = some w) :
    isMark w.cls = true := by
  rw [apostrophe?.apostropheOne?] at h
  split at h
  · cases h
    rfl
  · split at h
    · cases h
      rfl
    · cases h

theorem isMark_apostrophe? {text : List Char} {w : Word} (h : apostrophe? text = some w) :
    isMark w.cls = true := by
  match text with
  | [] => cases h
  | [c] => exact isMark_apostropheOne? h
  | s :: b :: v =>
    rw [apostrophe?] at h
    split at h
    · cases h
      rfl
    · exact isMark_apostropheOne? h

theorem isMark_markWord (c : Char) (v : List Char) : isMark (markWord c v).cls = true := by
  rw [markWord]
  split
  · rfl
  · cases ha : (if c == '\'' then apostrophe? v else none) with
    | some w =>
      split at ha
      · exact isMark_apostrophe? ha
      · cases ha
    | none =>
      cases hsym : symbol? (c :: v) with
      | none => rfl
      | some w =>
        rw [symbol?, Option.map_eq_some_iff] at hsym
        obtain ⟨s, -, rfl⟩ := hsym
        rfl

/-- What is no mark starts as a name or with a backslash. -/
theorem isMark_word {c : Char} (hn : isNameStart c = false) (hb : c ≠ '\\') (v : List Char) :
    isMark (word (c :: v)).cls = true := by
  cases hd : c.isDigit with
  | true =>
    rw [word_number hn hd]
    exact isMark_number _
  | false =>
  by_cases hq : c = '"'
  · subst hq
    rfl
  by_cases ht : c = '\x60'
  · subst ht
    exact isMark_backtick v
  · rw [word_mark hn hd hq ht hb]
    exact isMark_markWord c v

theorem word_cls_ne_endOfFile (c : Char) (v : List Char) : (word (c :: v)).cls ≠ .endOfFile := by
  cases hn : isNameStart c with
  | true =>
    rw [word_name hn]
    dsimp only
    split <;> exact fun h => by cases h
  | false =>
    by_cases hb : c = '\\'
    · subst hb
      rw [word_backslash, backslash.eq_def]
      split
      · exact fun h => by cases h
      · exact fun h => by cases h
      · exact fun h => by cases h
      · split <;> exact fun h => by cases h
    · intro h
      have := isMark_word hn hb v
      rw [h] at this
      cases this

/-! ## Names -/

/-- A name that needs no backslash. -/
def isPlainName : List Char → Bool
  | [] => false
  | c :: v => isNameStart c && v.all isNamePart

/-- How a name stands in its text: plain, or behind a backslash up to the next character that is
not visible. -/
inductive Named (w : Word) (text : List Char) : Prop
  | plain (hname : isPlainName w.value = true) (hlen : w.length = w.value.length)
      (htext : text.take w.length = w.value)
  | escaped (hlen : w.length = w.value.length + 1) (htext : text.take w.length = '\\' :: w.value)
      (hname : ∀ c ∈ w.value, isEscapedPart c = true) (hne : w.value ≠ [])
      (hend : ∀ c ∈ (text.drop w.length).head?, isEscapedPart c = false)

theorem isPlainName_takeWhile {c : Char} (hc : isNameStart c = true) (v : List Char) :
    isPlainName (c :: v.takeWhile isNamePart) = true := by
  rw [isPlainName, hc, Bool.true_and]
  exact List.all_takeWhile

theorem take_takeWhile (p : Char → Bool) (v : List Char) :
    v.take (v.takeWhile p).length = v.takeWhile p :=
  (List.prefix_iff_eq_take.mp (List.takeWhile_prefix p)).symm

theorem drop_takeWhile (p : Char → Bool) (v : List Char) :
    v.drop (v.takeWhile p).length = v.dropWhile p := by
  conv => lhs; arg 2; rw [← List.takeWhile_append_dropWhile (p := p) (l := v)]
  rw [List.drop_left]

theorem backslash_named {v : List Char} (hf : (backslash v).faults = [])
    (hc : (backslash v).cls = .identifier ∨ (backslash v).cls = .keyword) :
    Named (backslash v) ('\\' :: v) := by
  by_cases hend : ∀ c ∈ v.head?, Scan.endsLine c = false
  · rw [backslash_name hend] at hf ⊢
    cases hname : v.takeWhile isEscapedPart with
    | nil =>
      rw [hname] at hf
      cases hf
    | cons d name =>
      refine .escaped (Nat.add_comm _ _) ?_ (fun e he => ?_) (List.cons_ne_nil _ _) ?_
      · show ('\\' :: v).take (1 + (d :: name).length) = _
        rw [Nat.add_comm, List.take_succ_cons, ← hname, take_takeWhile, hname]
        rfl
      · refine Text.mem_takeWhile (s := v) e ?_
        rw [hname]
        exact he
      · show ∀ c ∈ (('\\' :: v).drop (1 + (d :: name).length)).head?, _
        rw [Nat.add_comm, List.drop_succ_cons, ← hname, drop_takeWhile]
        exact Text.head?_dropWhile isEscapedPart v
  · -- behind a line end there is no name
    cases v with
    | nil => exact absurd nofun hend
    | cons d v =>
      cases hl : Scan.endsLine d with
      | true =>
        have hcls := (spelling_lineEnd hl v).2
        rw [word_backslash] at hcls
        rw [hcls] at hc
        rcases hc with hc | hc <;> cases hc
      | false => exact absurd (fun e he => Option.some.inj he ▸ hl) hend

theorem word_named {text : List Char} (hf : (word text).faults = [])
    (hc : (word text).cls = .identifier ∨ (word text).cls = .keyword) : Named (word text) text := by
  match text with
  | [] => rcases hc with hc | hc <;> cases hc
  | c :: v =>
  cases hn : isNameStart c with
  | true =>
    rw [word_name hn]
    refine .plain (isPlainName_takeWhile hn v) rfl ?_
    rw [List.length_cons, List.take_succ_cons, take_takeWhile]
  | false =>
    by_cases hb : c = '\\'
    · subst hb
      rw [word_backslash] at hf hc ⊢
      exact backslash_named hf hc
    · have hmark := isMark_word hn hb v
      rcases hc with hc | hc <;> rw [hc] at hmark <;> cases hmark

theorem word_plain {name rest : List Char} (hname : isPlainName name = true)
    (hrest : ∀ c ∈ rest.head?, isNamePart c = false) :
    word (name ++ rest) =
      ⟨if keywords.contains (String.ofList name) then .keyword else .identifier, name.length, name,
        []⟩ := by
  match name with
  | [] => cases hname
  | c :: v =>
    rw [isPlainName, Bool.and_eq_true, List.all_eq_true] at hname
    have htake := Text.takeWhile_append_of_head hname.2 hrest
    rw [List.cons_append, word_name hname.1, htake]

/-! ## Line continuations and symbols -/

theorem word_lineContinuation {text : List Char} (hc : (word text).cls = .lineContinuation) :
    ∃ c v, text = '\\' :: c :: v ∧ Scan.endsLine c = true ∧
      ((text.take (word text).length = ['\\', c]) ∨
        (text.take (word text).length = ['\\', '\r', '\n'] ∧ c = '\r')) := by
  match text with
  | [] => cases hc
  | c :: v =>
  cases hn : isNameStart c with
  | true =>
    rw [word_name hn] at hc
    dsimp only at hc
    split at hc <;> cases hc
  | false =>
    by_cases hb : c = '\\'
    · subst hb
      rw [word_backslash] at hc ⊢
      revert hc
      rw [backslash.eq_def]
      split
      · exact fun _ => ⟨_, _, rfl, rfl, .inr ⟨rfl, rfl⟩⟩
      · exact fun _ => ⟨_, _, rfl, rfl, .inl rfl⟩
      · exact fun _ => ⟨_, _, rfl, rfl, .inl rfl⟩
      · split <;> exact fun h => by cases h
    · have hmark := isMark_word hn hb v
      rw [hc] at hmark
      cases hmark

/-- A symbol of one character that no longer one can take the place of. -/
theorem symbol?_single {c : Char} {rest : List Char} (hmem : String.singleton c ∈ symbols)
    (h : ∀ s ∈ symbols, s.toList <+: c :: rest → s = String.singleton c) :
    symbol? (c :: rest) = some ⟨.symbol, 1, [c], []⟩ := by
  have hprefix : (String.singleton c).toList <+: c :: rest := by
    rw [String.toList_singleton]
    exact List.cons_prefix_cons.mpr ⟨rfl, List.nil_prefix⟩
  cases hfind : symbols.find? fun s => (Text.afterStart? s.toList (c :: rest)).isSome with
  | none =>
    have := List.find?_eq_none.mp hfind _ hmem
    exact absurd ((Text.afterStart?_isSome _ _).mpr hprefix) this
  | some s =>
    have hs := List.find?_some hfind
    rw [Text.afterStart?_isSome] at hs
    obtain rfl := h s (List.mem_of_find?_eq_some hfind) hs
    rw [symbol?, hfind]
    show some (Word.mk .symbol (String.singleton c).length (String.singleton c).toList []) = _
    rw [String.length_singleton, String.toList_singleton]

theorem markWord_of_symbol? {c : Char} {v : List Char} {w : Word} (hd : c ≠ '$') (hq : c ≠ '\'')
    (h : symbol? (c :: v) = some w) : markWord c v = w := by
  simp [markWord, hd, hq, h]

theorem word_separator {c : Char} (hc : c = ',' ∨ c = ')') (rest : List Char) :
    word (c :: rest) = ⟨.symbol, 1, [c], []⟩ := by
  have hsymbol : symbol? (c :: rest) = some ⟨.symbol, 1, [c], []⟩ := by
    have hlone : ∀ s ∈ symbols, (s.toList.head? = some ',' → s = ",") ∧
        (s.toList.head? = some ')' → s = ")") := by decide +kernel
    refine symbol?_single ?_ fun s hs hp => ?_
    · rcases hc with rfl | rfl <;> decide +kernel
    · have hhead : s.toList.head? = some c := by
        cases hl : s.toList with
        | nil => exact absurd (String.toList_eq_nil_iff.mp hl) (spelled_symbols s hs).1
        | cons d v =>
          rw [hl, List.cons_prefix_cons] at hp
          rw [hp.1]
          rfl
      rcases hc with rfl | rfl
      · exact (hlone s hs).1 hhead
      · exact (hlone s hs).2 hhead
  rcases hc with rfl | rfl <;>
  · rw [word_mark rfl rfl (by decide) (by decide) (by decide)]
    exact markWord_of_symbol? (by decide) (by decide) hsymbol

theorem word_openParenthesis {rest : List Char} (h : rest.head? ≠ some '*') :
    word ('(' :: rest) = ⟨.symbol, 1, ['('], []⟩ := by
  have hlonger : ∀ s ∈ symbols, s.toList.head? = some '(' → s = "(" ∨ s.toList[1]? = some '*' := by
    decide +kernel
  have hsymbol : symbol? ('(' :: rest) = some ⟨.symbol, 1, ['('], []⟩ := by
    refine symbol?_single (by decide +kernel) fun s hs hp => ?_
    cases hl : s.toList with
    | nil => exact absurd (String.toList_eq_nil_iff.mp hl) (spelled_symbols s hs).1
    | cons d v =>
      rw [hl, List.cons_prefix_cons] at hp
      refine (hlonger s hs (by rw [hl, hp.1]; rfl)).resolve_right fun hstar => h ?_
      rw [hl, List.getElem?_cons_succ, ← List.head?_eq_getElem?] at hstar
      obtain ⟨w, rfl⟩ := List.head?_eq_some_iff.mp hstar
      obtain ⟨t, rfl⟩ := hp.2
      rfl
  rw [word_mark rfl rfl (by decide) (by decide) (by decide)]
  exact markWord_of_symbol? (by decide) (by decide) hsymbol

end HdlLint.Verilog.Lexer
