import HdlLint.Proofs.Verilog.Spelling

/-!
# Texts and their lexemes

`Lexes` relates a text to its lexemes by what is written, without places. The lexer's lexemes of a
text are so related to it (`lexes_lexemes`), and a text fixes what its first lexeme is (`Front`).
-/

namespace HdlLint.Verilog.Lexer

open TokenStream (triviaText sourceText)

/-- The first lexeme of a text, by what the lexer finds behind its trivia, and the text behind it. -/
structure Front (l : Lexeme) (text rest : List Char) : Prop where
  ne_nil : behindTrivia text ≠ []
  text_eq : triviaText l.trivia ++ behindTrivia text = text
  cls : l.cls = (word (behindTrivia text)).cls
  raw : l.raw.toList = (behindTrivia text).take (word (behindTrivia text)).length
  rest_eq : rest = (behindTrivia text).drop (word (behindTrivia text)).length
  value : l.value.toList = (word (behindTrivia text)).value
  faults : l.faults = [] ↔ (word (behindTrivia text)).faults = []
  sameLine : l.onSameLine = true ↔ ∀ c ∈ triviaText l.trivia, Scan.endsLine c = false
  noTrivia : l.trivia = [] ↔ triviaText l.trivia = []

/-- The lexemes of a text, the last of which is its end. -/
inductive Lexes : List Char → List Lexeme → Prop
  | done {text : List Char} {e : Lexeme} (h : behindTrivia text = []) (hc : e.cls = .endOfFile)
      (hf : '/' ∉ text → e.faults = []) : Lexes text [e]
  | cons {l : Lexeme} {text rest : List Char} {ls : List Lexeme} (h : Front l text rest)
      (hl : Lexes rest ls) : Lexes text (l :: ls)

namespace Front

variable {l : Lexeme} {text rest : List Char}

theorem raw_append (h : Front l text rest) : l.raw.toList ++ rest = behindTrivia text := by
  rw [h.raw, h.rest_eq, List.take_append_drop]

theorem sourceText_append (h : Front l text rest) : sourceText l ++ rest = text := by
  rw [sourceText, List.append_assoc, h.raw_append, h.text_eq]

theorem trivial (h : Front l text rest) : Trivial (triviaText l.trivia) := by
  obtain ⟨t, ht, htrivial⟩ := exists_trivial_of_behindTrivia h.ne_nil
  obtain rfl : triviaText l.trivia = t :=
    List.append_cancel_right (h.text_eq.trans ht)
  exact htrivial

theorem trivia?_raw (h : Front l text rest) : trivia? (l.raw.toList ++ rest) = none := by
  rw [h.raw_append]
  exact trivia?_behindTrivia text

theorem raw_ne_nil (h : Front l text rest) : l.raw.toList ≠ [] := by
  obtain ⟨c, v, hcv⟩ := List.exists_cons_of_ne_nil h.ne_nil
  have hpos := word_pos c v
  rw [h.raw, hcv]
  intro hnil
  have := congrArg List.length hnil
  rw [List.length_take, List.length_cons, List.length_nil] at this
  omega

theorem cls_ne_endOfFile (h : Front l text rest) : l.cls ≠ .endOfFile := by
  obtain ⟨c, v, hcv⟩ := List.exists_cons_of_ne_nil h.ne_nil
  rw [h.cls, hcv]
  exact word_cls_ne_endOfFile c v

/-- The word that a lexeme without faults is. -/
theorem word_eq (h : Front l text rest) (hf : l.faults = []) :
    word (l.raw.toList ++ rest) = ⟨l.cls, l.raw.toList.length, l.value.toList, []⟩ := by
  obtain ⟨c, v, hcv⟩ := List.exists_cons_of_ne_nil h.ne_nil
  have hw := h.faults.mp hf
  have hlen : l.raw.toList.length = (word (behindTrivia text)).length := by
    have hle := (word_spelling (c := c) (v := v) (by rw [← hcv]; exact hw)).le
    rw [h.raw, List.length_take, hcv]
    omega
  rw [h.raw_append, hlen, h.cls, h.value, ← hw]

end Front

/-! ## The lexer's lexemes -/

theorem lexeme_eq (included : Option String) (s : Scan) :
    lexeme included s =
      let read := readTrivia included (s.rest.length + 1) s
      let w := word read.2.2.rest
      (⟨w.cls, String.ofList (read.2.2.rest.take w.length), String.ofList w.value,
        read.2.2.place included, (read.2.2.skipMany w.length).place included, read.1,
        read.2.1 ++ w.faults.map fun n => (read.2.2.skipMany n).place included⟩,
        read.2.2.skipMany w.length) := rfl

theorem rest_readTrivia (included : Option String) (s : Scan) :
    (readTrivia included (s.rest.length + 1) s).2.2.rest = behindTrivia s.rest :=
  (readTrivia_text included (Nat.lt_succ_self _)).1

theorem front_lexeme (included : Option String) {s : Scan} (h : behindTrivia s.rest ≠ []) :
    Front (lexeme included s).1 s.rest (lexeme included s).2.rest := by
  have hcount := Nat.lt_succ_self s.rest.length
  have hrest := rest_readTrivia included s
  have hfaults : (readTrivia included (s.rest.length + 1) s).2.1 = [] :=
    Decidable.byContradiction fun hne => h (faults_readTrivia included hne).1
  rw [lexeme_eq]
  simp only [hrest, rest_skipMany]
  refine ⟨h, (readTrivia_text included hcount).2, rfl, String.toList_ofList, rfl,
    String.toList_ofList, ?_, all_keepsLine_readTrivia included hcount h,
    readTrivia_eq_nil_iff included hcount⟩
  dsimp only
  rw [hfaults, List.nil_append, List.map_eq_nil_iff]

theorem lexeme_end (included : Option String) {s : Scan} (h : behindTrivia s.rest = []) :
    (lexeme included s).1.cls = .endOfFile ∧ ('/' ∉ s.rest → (lexeme included s).1.faults = []) := by
  have hrest := rest_readTrivia included s
  rw [h] at hrest
  rw [lexeme_eq]
  simp only [hrest]
  refine ⟨rfl, fun hslash => ?_⟩
  have hfaults : (readTrivia included (s.rest.length + 1) s).2.1 = [] :=
    Decidable.byContradiction fun hne => hslash (faults_readTrivia included hne).2
  show _ ++ [] = []
  rw [hfaults, List.nil_append]

theorem length_behindTrivia_le (text : List Char) : (behindTrivia text).length ≤ text.length := by
  by_cases h : behindTrivia text = []
  · rw [h]
    exact Nat.zero_le _
  · obtain ⟨t, ht, -⟩ := exists_trivial_of_behindTrivia h
    have := congrArg List.length ht
    rw [List.length_append] at this
    omega

theorem Front.length_rest_lt {l : Lexeme} {text rest : List Char} (h : Front l text rest) :
    rest.length < text.length := by
  have hraw := List.length_pos_iff.mpr h.raw_ne_nil
  have happend := congrArg List.length h.raw_append
  have := length_behindTrivia_le text
  rw [List.length_append] at happend
  omega

theorem lexes_readLexemes (included : Option String) {count : Nat} {s : Scan}
    (h : s.rest.length < count) : Lexes s.rest (readLexemes included count s) := by
  induction count generalizing s with
  | zero => cases h
  | succ count ih =>
    rw [readLexemes]
    dsimp only
    by_cases hne : behindTrivia s.rest = []
    · obtain ⟨hc, hf⟩ := lexeme_end included hne
      rw [if_pos hc]
      exact .done hne hc hf
    · have hfront := front_lexeme included hne
      rw [if_neg hfront.cls_ne_endOfFile]
      exact .cons hfront (ih (Nat.lt_of_lt_of_le hfront.length_rest_lt (Nat.le_of_lt_succ h)))

/-- A text without the mark of its encoding. -/
def withoutMark (text : List Char) : List Char :=
  (skipByteOrderMark (Scan.ofText text)).rest

theorem lexes_lexemes (included : Option String) (text : List Char) :
    Lexes (withoutMark text) (lexemes included text) := by
  refine lexes_readLexemes included (Nat.lt_succ_of_le ?_)
  rw [skipByteOrderMark]
  split
  · rw [rest_skip, List.length_drop]
    exact Nat.sub_le _ _
  · exact Nat.le_refl _

theorem withoutMark_of_ne {c : Char} (hc : c ≠ '\ufeff') (text : List Char) :
    withoutMark (c :: text) = c :: text := by
  rw [withoutMark, skipByteOrderMark]
  split
  · rename_i h
    exact absurd (List.cons.inj h).1 hc
  · rfl

/-! ## What a text fixes -/

/-- A lexeme without faults, by what is written. -/
structure Spells (l : Lexeme) (t raw value : List Char) (cls : LexemeClass) : Prop where
  cls : l.cls = cls
  raw : l.raw.toList = raw
  value : l.value.toList = value
  trivia : triviaText l.trivia = t
  faults : l.faults = []
  sameLine : l.onSameLine = true ↔ ∀ c ∈ t, Scan.endsLine c = false
  noTrivia : l.trivia = [] ↔ t = []

theorem Front.spells {l : Lexeme} {t raw value rest rest' : List Char} {cls : LexemeClass}
    (h : Front l (t ++ (raw ++ rest)) rest') (ht : Trivial t)  (hstart : trivia? (raw ++ rest) = none)
    (hword : word (raw ++ rest) = ⟨cls, raw.length, value, []⟩) :
    Spells l t raw value cls ∧ rest' = rest := by
  have hbehind : behindTrivia (t ++ (raw ++ rest)) = raw ++ rest := by
    rw [behindTrivia_append ht, behindTrivia_of_none hstart]
  obtain ⟨-, htext, hcls, hl, hrest, hvalue, hfaults, hsame, hnone⟩ := h
  rw [hbehind] at htext hcls hl hrest hvalue hfaults
  rw [hword] at hcls hl hrest hvalue hfaults
  obtain rfl : triviaText l.trivia = t := List.append_cancel_right htext
  rw [List.take_left] at hl
  rw [List.drop_left] at hrest
  exact ⟨⟨hcls, hl, hvalue, rfl, hfaults.mpr rfl, hsame, hnone⟩, hrest⟩

/-- The first lexeme of a text that starts with trivia and a known word. -/
theorem Lexes.exists_spells {ls : List Lexeme} {t raw value rest : List Char}
    {cls : LexemeClass} (h : Lexes (t ++ (raw ++ rest)) ls) (ht : Trivial t)
    (hraw : raw ≠ []) (hstart : trivia? (raw ++ rest) = none)
    (hword : word (raw ++ rest) = ⟨cls, raw.length, value, []⟩) :
    ∃ l ls', ls = l :: ls' ∧ Spells l t raw value cls ∧ Lexes rest ls' := by
  cases h with
  | done hbehind =>
    rw [behindTrivia_append ht, behindTrivia_of_none hstart] at hbehind
    exact absurd (List.append_eq_nil_iff.mp hbehind).1 hraw
  | cons hfront hls =>
    obtain ⟨hspells, rfl⟩ := hfront.spells ht hstart hword
    exact ⟨_, _, rfl, hspells, hls⟩

/-! ## Lists of lexemes -/

/-- The text of some lexemes. -/
def textOf (ls : List Lexeme) : List Char :=
  ls.flatMap sourceText

theorem textOf_cons (l : Lexeme) (ls : List Lexeme) :
    textOf (l :: ls) = triviaText l.trivia ++ (l.raw.toList ++ textOf ls) := by
  rw [textOf, List.flatMap_cons, sourceText, List.append_assoc]
  rfl

theorem Spells.textOf_cons {l : Lexeme} {t raw value : List Char} {cls : LexemeClass}
    (h : Spells l t raw value cls) (ls : List Lexeme) :
    textOf (l :: ls) = t ++ (raw ++ textOf ls) := by
  rw [Lexer.textOf_cons, h.trivia, h.raw]

theorem textOf_singleton (l : Lexeme) : textOf [l] = triviaText l.trivia ++ l.raw.toList :=
  List.flatMap_singleton _ _

theorem textOf_append (ls ls' : List Lexeme) : textOf (ls ++ ls') = textOf ls ++ textOf ls' :=
  List.flatMap_append

/-- What is left of a text behind the first of some lexemes that it starts with. -/
theorem Front.rest_of_textOf {text rest x : List Char} {l : Lexeme} {ls : List Lexeme}
    (h : Front l text rest) (htext : text = textOf (l :: ls) ++ x) : rest = textOf ls ++ x := by
  have hsource := h.sourceText_append
  rw [htext, textOf, List.flatMap_cons, List.append_assoc] at hsource
  exact List.append_cancel_left hsource

theorem Lexes.append {text : List Char} {ls after : List Lexeme} (h : Lexes text (ls ++ after))
    (hne : after ≠ []) : ∃ x, text = textOf ls ++ x ∧ Lexes x after := by
  induction ls generalizing text with
  | nil => exact ⟨text, rfl, h⟩
  | cons l ls ih =>
    generalize hall : (l :: ls) ++ after = all at h
    cases h with
    | done => exact absurd (List.append_eq_nil_iff.mp (List.cons.inj hall).2).2 hne
    | cons hfront hls =>
      obtain ⟨rfl, rfl⟩ := List.cons.inj hall
      obtain ⟨x, rfl, hx⟩ := ih hls
      refine ⟨x, ?_, hx⟩
      rw [← hfront.sourceText_append, textOf_cons, sourceText, List.append_assoc, List.append_assoc,
        List.append_assoc]

/-- The first of some lexemes that are not all. -/
theorem Lexes.front {text : List Char} {l : Lexeme} {ls : List Lexeme} (h : Lexes text (l :: ls))
    (hne : ls ≠ []) : ∃ rest, Front l text rest ∧ Lexes rest ls := by
  cases h with
  | done => exact absurd rfl hne
  | cons hfront hls => exact ⟨_, hfront, hls⟩

theorem Lexes.of_behindTrivia {text : List Char} {ls : List Lexeme} (h : Lexes text ls)
    (hb : behindTrivia text = []) (hslash : '/' ∉ text) :
    ∃ e, ls = [e] ∧ e.cls = .endOfFile ∧ e.faults = [] := by
  cases h with
  | done _ hc hf => exact ⟨_, rfl, hc, hf hslash⟩
  | cons hfront => exact absurd hb hfront.ne_nil

/-- Where a lexeme is the last one of its line, the text behind it ends or goes on with trivia. -/
theorem Lexes.ends {text : List Char} {l : Lexeme} {ls : List Lexeme} (h : Lexes text (l :: ls))
    (hl : l.cls = .endOfFile ∨ l.onSameLine = false) : Ends text := by
  refine ends_of_trivia? ?_
  by_cases hne : text = []
  · exact .inl hne
  · refine .inr fun hnone => ?_
    cases h with
    | done hb => exact hne ((behindTrivia_of_none hnone).symm.trans hb)
    | cons hfront =>
      rcases hl with hc | hs
      · exact hfront.cls_ne_endOfFile hc
      · have htext := hfront.text_eq
        rw [behindTrivia_of_none hnone, List.append_left_eq_self] at htext
        have hsame := hfront.sameLine.mpr (by rw [htext]; nofun)
        rw [hs] at hsame
        cases hsame

/-! ## The characters of a lexeme -/

namespace Front

variable {l : Lexeme} {text rest : List Char}

theorem spelling (h : Front l text rest) (hf : l.faults = []) :
    Spelling ⟨l.cls, l.raw.toList.length, l.value.toList, []⟩ (l.raw.toList ++ rest) := by
  have hword := h.word_eq hf
  obtain ⟨c, v, hcv⟩ := List.exists_cons_of_ne_nil h.ne_nil
  rw [← h.raw_append] at hcv
  rw [hcv] at hword ⊢
  rw [← hword]
  exact word_spelling (by rw [hword])

theorem raw_head (h : Front l text rest) (hf : l.faults = []) :
    ∀ c ∈ l.raw.toList.head?, isEscapedPart c = true := by
  intro c hc
  refine (h.spelling hf).head c ?_
  obtain ⟨v, hv⟩ := List.head?_eq_some_iff.mp hc
  rw [hv]
  rfl

theorem raw_last (h : Front l text rest) (hf : l.faults = []) (hc : l.cls ≠ .lineContinuation) :
    ∀ c ∈ l.raw.toList.getLast?, isEscapedPart c = true := by
  have hlast := (h.spelling hf).last hc
  rw [List.take_left] at hlast
  exact hlast

theorem raw_lineContinuation (h : Front l text rest) (hf : l.faults = [])
    (hc : l.cls = .lineContinuation) :
    ∃ y, l.raw.toList = '\\' :: y ∧ y ≠ [] ∧ ∀ c ∈ y, Scan.endsLine c = true := by
  have hword := h.word_eq hf
  obtain ⟨c, v, -, hend, htake⟩ := @word_lineContinuation (l.raw.toList ++ rest)
    (by rw [hword]; exact hc)
  rw [hword, List.take_left] at htake
  rcases htake with htake | ⟨htake, -⟩
  · exact ⟨[c], htake, List.cons_ne_nil _ _, fun d hd => List.mem_singleton.mp hd ▸ hend⟩
  · exact ⟨['\r', '\n'], htake, List.cons_ne_nil _ _, List.all_eq_true.mp (by decide)⟩

end Front

/-! ## Lexemes at the end of a line -/

theorem trivia?_endOfLine {v x : List Char} (hv : v ≠ []) (h : trivia? (v ++ x) = none) :
    trivia? (v ++ ['\n']) = none := by
  obtain ⟨c, v, rfl⟩ := List.exists_cons_of_ne_nil hv
  rw [List.cons_append, trivia?_cons_eq_none] at h ⊢
  refine ⟨h.1, h.2.1, fun hc => ?_⟩
  cases v with
  | nil => exact ⟨by decide, by decide⟩
  | cons d v => exact h.2.2 hc

/-- A lexeme is read again where the text behind it is cut off at the end of its line. -/
theorem Front.spells_endOfLine {l : Lexeme} {text u x t : List Char} {ls : List Lexeme}
    (h : Front l text (u ++ x)) (hf : l.faults = []) (hx : Ends x)
    (hlast : (l.raw.toList ++ u).getLast? ≠ some '\r') (ht : Trivial t)
    (hls : Lexes (t ++ (l.raw.toList ++ (u ++ ['\n']))) ls) :
    ∃ l' ls', ls = l' :: ls' ∧ Spells l' t l.raw.toList l.value.toList l.cls ∧
      Lexes (u ++ ['\n']) ls' := by
  have hne : l.raw.toList ++ u ≠ [] := fun hnil => h.raw_ne_nil (List.append_eq_nil_iff.mp hnil).1
  have hword := h.word_eq hf
  have hstart := h.trivia?_raw
  rw [← List.append_assoc] at hword hstart
  have hagain : word (l.raw.toList ++ (u ++ ['\n'])) =
      ⟨l.cls, l.raw.toList.length, l.value.toList, []⟩ := by
    rw [← List.append_assoc, word_endOfLine hne hlast hx, hword]
    · rw [hword, List.length_append]
      exact Nat.le_add_right _ _
    · rw [hword]
  refine hls.exists_spells ht h.raw_ne_nil ?_ hagain
  rw [← List.append_assoc]
  exact trivia?_endOfLine hne hstart

/-! ## Names -/

theorem Front.named {l : Lexeme} {text rest : List Char} (h : Front l text rest)
    (hf : l.faults = []) (hc : l.cls = .identifier ∨ l.cls = .keyword) :
    (isPlainName l.value.toList = true ∧ l.raw.toList = l.value.toList) ∨
      (l.raw.toList = '\\' :: l.value.toList ∧ (∀ c ∈ l.value.toList, isEscapedPart c = true) ∧
        ∀ c ∈ rest.head?, isEscapedPart c = false) := by
  have hword := h.word_eq hf
  have hnamed := @word_named (l.raw.toList ++ rest) (by rw [hword]) (by rw [hword]; exact hc)
  rw [hword] at hnamed
  cases hnamed with
  | plain hname hlen htext =>
    rw [List.take_left] at htext
    exact .inl ⟨hname, htext⟩
  | escaped hlen htext hname hne hend =>
    rw [List.take_left] at htext
    rw [List.drop_left] at hend
    exact .inr ⟨htext, hname, hend⟩

theorem isPlainName_head {name : List Char} (h : isPlainName name = true) :
    ∃ c v, name = c :: v ∧ isNameStart c = true := by
  cases name with
  | nil => cases h
  | cons c v =>
    rw [isPlainName, Bool.and_eq_true] at h
    exact ⟨c, v, rfl, h.1⟩

theorem isNamePart_of_isPlainName {name : List Char} (h : isPlainName name = true) :
    ∀ c ∈ name, isNamePart c = true := by
  cases name with
  | nil => nofun
  | cons c v =>
    rw [isPlainName, Bool.and_eq_true, List.all_eq_true] at h
    exact List.forall_mem_cons.mpr ⟨isNamePart_of_isNameStart h.1, h.2⟩

/-- No trivia starts with a visible character but for comments. -/
theorem trivia?_of_isEscapedPart {c : Char} (hc : isEscapedPart c = true) (hs : c ≠ '/')
    (v : List Char) : trivia? (c :: v) = none := by
  rw [isEscapedPart_iff] at hc
  rw [trivia?_cons_eq_none]
  refine ⟨?_, ?_, fun h => absurd h hs⟩
  · rw [Bool.eq_false_iff]
    intro hb
    simp only [isLineBlank, Bool.or_eq_true, beq_iff_eq] at hb
    rcases hb with ((rfl | rfl) | rfl) | rfl <;> exact absurd hc (by decide)
  · rw [Bool.eq_false_iff]
    intro he
    rcases endsLine_iff.mp he with rfl | rfl <;> exact absurd hc (by decide)

theorem trivia?_of_isPlainName {name : List Char} (h : isPlainName name = true) (v : List Char) :
    trivia? (name ++ v) = none := by
  obtain ⟨c, w, rfl, hc⟩ := isPlainName_head h
  refine trivia?_of_isEscapedPart (isEscapedPart_of_isNamePart (isNamePart_of_isNameStart hc)) ?_ _
  rintro rfl
  cases hc

end HdlLint.Verilog.Lexer
