import HdlLint.Proofs.Text.Occurs
import HdlLint.Proofs.Verilog.Trivia

/-!
# Words at the end of a line

A word that the lexer takes from a text is the same where the text behind it is cut off at the end
of its line (`word_endOfLine`): what the lexer looks at behind a word tells no more than that the
word is over. There is one such lemma for each kind of word.
-/

namespace HdlLint.Verilog.Lexer

/-- The characters that trivia starts with. -/
def triviaMarks : List Char :=
  ['\n', '\r', '/', ' ', '\t', '\x0b', '\x0c']

/-- Whether a text is over or goes on with trivia, by its first character. -/
def Ends (x : List Char) : Prop :=
  ∀ c ∈ x.head?, c ∈ triviaMarks

theorem ends_of_trivia? {x : List Char} (h : x = [] ∨ trivia? x ≠ none) : Ends x := by
  intro c hc
  obtain ⟨rest, rfl⟩ := List.head?_eq_some_iff.mp hc
  have hne := h.resolve_left (List.cons_ne_nil _ _)
  rw [ne_eq, trivia?_cons_eq_none] at hne
  refine Decidable.byContradiction fun hm => ?_
  simp only [triviaMarks, List.mem_cons, List.not_mem_nil, or_false, not_or] at hm
  refine hne ⟨?_, ?_, fun hs => absurd hs hm.2.2.1⟩
  · simp only [isLineBlank, Bool.or_eq_false_iff, beq_eq_false_iff_ne]
    exact ⟨⟨⟨hm.2.2.2.1, hm.2.2.2.2.1⟩, hm.2.2.2.2.2.1⟩, hm.2.2.2.2.2.2⟩
  · simp only [Scan.endsLine, Bool.or_eq_false_iff, beq_eq_false_iff_ne]
    exact ⟨hm.1, hm.2.1⟩

/-- A class of characters that no trivia starts with does not go on where a text ends. -/
theorem Ends.head {x : List Char} (h : Ends x) {p : Char → Bool}
    (hp : triviaMarks.any p = false) : ∀ c ∈ x.head?, p c = false :=
  fun c hc => Bool.eq_false_iff.mpr (List.any_eq_false.mp hp c (h c hc))

theorem Ends.head?_map {x : List Char} (h : Ends x) {p : Char → Bool}
    (hp : triviaMarks.any p = false) : (x.head?.map p).getD false = false := by
  cases hx : x.head? with
  | none => rfl
  | some c => exact h.head hp c hx

theorem ends_newline : Ends ['\n'] := by
  intro c hc
  obtain rfl := Option.some.inj hc
  decide

theorem ends_append {y x : List Char} (hy : ∀ c ∈ y, Scan.endsLine c = true) (hx : Ends x) :
    Ends (y ++ x) := by
  cases y with
  | nil => exact hx
  | cons c y =>
    intro d hd
    obtain rfl := Option.some.inj hd
    rcases endsLine_iff.mp (hy c List.mem_cons_self) with rfl | rfl <;> decide

/-! ## Runs of characters -/

theorem takeWhile_eq_of_length_le {p : Char → Bool} {u x y : List Char}
    (h : ((u ++ x).takeWhile p).length ≤ u.length) (hy : ∀ c ∈ y.head?, p c = false) :
    (u ++ y).takeWhile p = (u ++ x).takeWhile p := by
  induction u with
  | nil =>
    have hx : x.takeWhile p = [] := List.length_eq_zero_iff.mp (Nat.le_zero.mp h)
    rw [List.nil_append, List.nil_append, hx]
    cases y with
    | nil => rfl
    | cons c y => exact List.takeWhile_cons_of_neg (Bool.eq_false_iff.mp (hy c rfl))
  | cons c u ih =>
    rw [List.cons_append] at h
    rw [List.cons_append, List.cons_append]
    cases hc : p c with
    | false =>
      rw [List.takeWhile_cons_of_neg (Bool.eq_false_iff.mp hc),
        List.takeWhile_cons_of_neg (Bool.eq_false_iff.mp hc)]
    | true =>
      rw [List.takeWhile_cons_of_pos hc] at h
      rw [List.takeWhile_cons_of_pos hc, List.takeWhile_cons_of_pos hc, ih (Nat.le_of_succ_le_succ h)]

/-! ## Numbers -/

theorem fraction_endOfLine {u x : List Char} (hx : Ends x) (h : (fraction (u ++ x)).1 ≤ u.length) :
    fraction (u ++ ['\n']) = fraction (u ++ x) := by
  have hother : ∀ v : List Char, v.head? ≠ some '.' → fraction v = (0, false) := by
    intro v hv
    rw [fraction.eq_def]
    split
    · exact absurd rfl hv
    · rfl
  cases u with
  | nil =>
    have hdot : x.head? ≠ some '.' := fun hd => absurd (hx '.' hd) (by decide)
    rw [List.nil_append, List.nil_append, hother x hdot]
    rfl
  | cons c u =>
    by_cases hc : c = '.'
    · subst hc
      have htake : ((u ++ x).takeWhile isDigitPart).length ≤ u.length := by
        have : 1 + ((u ++ x).takeWhile isDigitPart).length ≤ u.length + 1 := h
        omega
      have hhead : ((u ++ ['\n']).head?.map Char.isDigit).getD false =
          ((u ++ x).head?.map Char.isDigit).getD false := by
        cases u with
        | nil => exact (hx.head?_map (by decide)).symm
        | cons d u => rfl
      rw [List.cons_append, List.cons_append, fraction, fraction]
      rw [takeWhile_eq_of_length_le htake (ends_newline.head (by decide)), hhead]
    · have hne : ∀ y, (c :: u ++ y).head? ≠ some '.' := fun y hd => hc (Option.some.inj hd)
      rw [hother _ (hne x), hother _ (hne _)]

theorem exponentLength_of_other {e : Char} (he : (e == 'e' || e == 'E') = false) (v : List Char) :
    exponentLength (e :: v) = 0 := by
  rw [exponentLength.eq_def]
  simp only [he, Bool.false_eq_true, if_false]

theorem exponentLength_of_mark {x : List Char} (hx : Ends x) : exponentLength x = 0 := by
  cases x with
  | nil => rfl
  | cons c x =>
    have hc : (c == 'e' || c == 'E') = false :=
      hx.head (p := fun c => c == 'e' || c == 'E') (by decide) c rfl
    exact exponentLength_of_other hc x

/-- Behind the letter of an exponent no digits follow trivia. -/
theorem exponentLength_letter {e : Char} (he : (e == 'e' || e == 'E') = true) {x : List Char}
    (hx : Ends x) : exponentLength (e :: x) = 0 := by
  rw [exponentLength.eq_def]
  simp only [he, if_true]
  cases x with
  | nil => rfl
  | cons c x =>
    have hsign : (c == '+' || c == '-') = false :=
      hx.head (p := fun c => c == '+' || c == '-') (by decide) c rfl
    have hdigit : c.isDigit = false := hx.head (p := Char.isDigit) (by decide) c rfl
    cases x with
    | nil => simp only [hdigit, Bool.false_eq_true, if_false]
    | cons d x => simp only [hsign, hdigit, Bool.false_and, Bool.false_eq_true, if_false]

/-- Of an exponent with one character only a digit counts. -/
theorem exponentLength_one {e : Char} (he : (e == 'e' || e == 'E') = true) (d : Char)
    {x : List Char} (hx : Ends x) :
    exponentLength (e :: d :: x) = if d.isDigit then 2 else 0 := by
  rw [exponentLength.eq_def]
  simp only [he, if_true]
  cases x with
  | nil => rfl
  | cons c x =>
    have hdigit : c.isDigit = false := hx.head (p := Char.isDigit) (by decide) c rfl
    have hpart : isDigitPart c = false := hx.head (p := isDigitPart) (by decide) c rfl
    simp only [hdigit, Bool.and_false, Bool.false_eq_true, if_false]
    split
    · rename_i hd
      have hdp : isDigitPart d = true := by rw [isDigitPart, hd]; rfl
      rw [List.takeWhile_cons_of_pos hdp, List.takeWhile_cons_of_neg (Bool.eq_false_iff.mp hpart)]
      rfl
    · rfl

theorem exponentLength_endOfLine {u x : List Char} (hx : Ends x)
    (h : exponentLength (u ++ x) ≤ u.length) :
    exponentLength (u ++ ['\n']) = exponentLength (u ++ x) := by
  match u with
  | [] => rw [List.nil_append, List.nil_append, exponentLength_of_mark hx,
      exponentLength_of_mark ends_newline]
  | e :: u =>
    cases he : (e == 'e' || e == 'E') with
    | false =>
      rw [List.cons_append, List.cons_append, exponentLength_of_other he,
        exponentLength_of_other he]
    | true =>
      match u with
      | [] => exact (exponentLength_letter he ends_newline).trans (exponentLength_letter he hx).symm
      | [d] =>
        exact (exponentLength_one he d ends_newline).trans (exponentLength_one he d hx).symm
      | sign :: d :: u =>
        rw [List.cons_append, List.cons_append, List.cons_append, exponentLength.eq_def] at h
        rw [List.cons_append, List.cons_append, List.cons_append, List.cons_append,
          List.cons_append, List.cons_append, exponentLength.eq_def, exponentLength.eq_def]
        simp only [he, if_true, List.length_cons] at h ⊢
        have hmark := ends_newline.head (p := isDigitPart) (by decide)
        split at h
        · rename_i hs
          have hlen : ((u ++ x).takeWhile isDigitPart).length ≤ u.length := by omega
          rw [if_pos hs, if_pos hs, takeWhile_eq_of_length_le hlen hmark]
        · rename_i hs
          rw [if_neg hs, if_neg hs]
          split at h
          · rename_i hsign
            rw [if_pos hsign, if_pos hsign]
            have hlen : ((sign :: d :: u ++ x).takeWhile isDigitPart).length ≤
                (sign :: d :: u).length := by
              simp only [List.cons_append, List.length_cons]
              omega
            exact congrArg (1 + List.length ·) (takeWhile_eq_of_length_le hlen hmark)
          · rename_i hsign
            rw [if_neg hsign, if_neg hsign]

theorem timeUnitLength_of_ne {c : Char} {v : List Char} (hc : c ≠ 's') (hv : v.head? ≠ some 's') :
    timeUnitLength (c :: v) = 0 := by
  rw [timeUnitLength.eq_def]
  split
  · rename_i h
    exact absurd (List.cons.inj h).1 hc
  · rename_i h
    obtain ⟨-, rfl⟩ := List.cons.inj h
    exact absurd rfl hv
  · rfl

theorem timeUnitLength_second (v : List Char) :
    timeUnitLength ('s' :: v) = if (v.head?.map isNamePart).getD false then 0 else 1 := by
  rw [timeUnitLength]

theorem timeUnitLength_pair {c : Char} (hc : c ≠ 's') (v : List Char) :
    timeUnitLength (c :: 's' :: v) =
      if ['m', 'u', 'n', 'p', 'f'].contains c && !(v.head?.map isNamePart).getD false then 2
      else 0 := by
  rw [timeUnitLength]
  exact fun h => absurd h hc

theorem timeUnitLength_of_mark {x : List Char} (hx : Ends x) : timeUnitLength x = 0 := by
  cases x with
  | nil => rfl
  | cons c x =>
    have hc : ['s', 'm', 'u', 'n', 'p', 'f'].contains c = false :=
      hx.head (p := ['s', 'm', 'u', 'n', 'p', 'f'].contains) (by decide) c rfl
    rw [List.contains_cons, Bool.or_eq_false_iff, beq_eq_false_iff_ne] at hc
    by_cases hs : x.head? = some 's'
    · obtain ⟨v, rfl⟩ := List.head?_eq_some_iff.mp hs
      rw [timeUnitLength_pair hc.1, hc.2]
      rfl
    · exact timeUnitLength_of_ne hc.1 hs

theorem timeUnitLength_endOfLine (u : List Char) {x : List Char} (hx : Ends x) :
    timeUnitLength (u ++ ['\n']) = timeUnitLength (u ++ x) := by
  -- whether a name goes on behind `v` depends on `v`, or else on where the text ends
  have hpart : ∀ v : List Char, ((v ++ ['\n']).head?.map isNamePart).getD false =
      ((v ++ x).head?.map isNamePart).getD false := by
    intro v
    cases v with
    | nil => exact (hx.head?_map (by decide)).symm
    | cons d v => rfl
  match u with
  | [] => exact (timeUnitLength_of_mark ends_newline).trans (timeUnitLength_of_mark hx).symm
  | a :: u =>
    rw [List.cons_append, List.cons_append]
    by_cases ha : a = 's'
    · subst ha
      rw [timeUnitLength_second, timeUnitLength_second, hpart]
    · match u with
      | [] =>
        have hs : x.head? ≠ some 's' := fun hs => absurd (hx 's' hs) (by decide)
        rw [List.nil_append, List.nil_append, timeUnitLength_of_ne ha (by decide),
          timeUnitLength_of_ne ha hs]
      | b :: u =>
        by_cases hb : b = 's'
        · subst hb
          rw [List.cons_append, List.cons_append, timeUnitLength_pair ha, timeUnitLength_pair ha,
            hpart]
        · have hne : ∀ y, (b :: u ++ y).head? ≠ some 's' := fun y hs => hb (Option.some.inj hs)
          rw [timeUnitLength_of_ne ha (hne _), timeUnitLength_of_ne ha (hne x)]

theorem isPrefixOf_endOfLine {s u : List Char} (hs : '\n' ∉ s)
    (h : s.isPrefixOf (u ++ ['\n']) = true) : s <+: u := by
  rw [List.isPrefixOf_iff_prefix] at h
  rcases Nat.lt_or_ge u.length s.length with hlt | hle
  · have hlen := h.length_le
    rw [List.length_append, List.length_singleton] at hlen
    have heq := h.eq_of_length (by rw [List.length_append, List.length_singleton]; omega)
    exact absurd (heq ▸ List.mem_append_right u (List.mem_singleton.mpr rfl)) hs
  · exact List.prefix_of_prefix_length_le h (List.prefix_append u _) hle

theorem number_endOfLine {u x : List Char} (hx : Ends x) (h : (number (u ++ x)).length ≤ u.length) :
    number (u ++ ['\n']) = number (u ++ x) := by
  have hstep : '\n' ∉ "1step".toList := by decide
  rw [number] at h
  rw [number, number]
  split at h
  · rename_i hp
    have hpu : "1step".toList <+: u :=
      List.prefix_of_prefix_length_le (List.isPrefixOf_iff_prefix.mp hp) (List.prefix_append u x) h
    rw [if_pos hp, if_pos (List.isPrefixOf_iff_prefix.mpr (hpu.trans (List.prefix_append u _)))]
  · rename_i hp
    have hnot : ¬"1step".toList.isPrefixOf (u ++ ['\n']) = true := fun hy =>
      hp (List.isPrefixOf_iff_prefix.mpr
        ((isPrefixOf_endOfLine hstep hy).trans (List.prefix_append u x)))
    rw [if_neg hp, if_neg hnot]
    dsimp only at h ⊢
    -- each part of the number lies within `u`, so the parts are found in the same places
    have hwhole : ((u ++ ['\n']).takeWhile isDigitPart) = (u ++ x).takeWhile isDigitPart :=
      takeWhile_eq_of_length_le (by omega) (ends_newline.head (by decide))
    rw [hwhole]
    generalize ((u ++ x).takeWhile isDigitPart).length = whole at h ⊢
    have hdrop : ∀ n y, n ≤ u.length → (u ++ y).drop n = u.drop n ++ y :=
      fun n y hn => List.drop_append_of_le_length hn
    rw [hdrop whole _ (by omega)] at h
    have hfraction : fraction (u.drop whole ++ ['\n']) = fraction (u.drop whole ++ x) :=
      fraction_endOfLine hx (by rw [List.length_drop]; omega)
    rw [hdrop whole _ (by omega), hdrop whole _ (by omega), hfraction]
    generalize fraction (u.drop whole ++ x) = part at h ⊢
    rw [hdrop (whole + part.1) _ (by omega)] at h
    have hexponent : exponentLength (u.drop (whole + part.1) ++ ['\n']) =
        exponentLength (u.drop (whole + part.1) ++ x) :=
      exponentLength_endOfLine hx (by rw [List.length_drop]; omega)
    rw [hdrop (whole + part.1) _ (by omega), hdrop (whole + part.1) _ (by omega), hexponent]
    generalize exponentLength (u.drop (whole + part.1) ++ x) = exponent at h ⊢
    rw [hdrop (whole + part.1 + exponent) _ (by omega)] at h
    rw [hdrop (whole + part.1 + exponent) _ (by omega),
      hdrop (whole + part.1 + exponent) _ (by omega), timeUnitLength_endOfLine _ hx]
    generalize timeUnitLength (u.drop (whole + part.1 + exponent) ++ x) = unit at h ⊢
    rw [List.take_append_of_le_length h, List.take_append_of_le_length h]

/-! ## Strings -/

theorem stringLength_pos {text : List Char} (h : (stringLength text).2 = true) :
    0 < (stringLength text).1 := by
  revert h
  fun_cases stringLength text with
  | case1 rest => exact fun _ => Nat.one_pos
  | case2 rest n closed hn => exact fun _ => Nat.succ_pos _
  | case3 c rest _ n closed hn => exact fun _ => Nat.succ_pos _
  | case4 => exact fun _ => Nat.one_pos
  | case5 c rest _ _ _ _ hc => nofun
  | case6 c rest _ _ _ _ n closed hn => exact fun _ => Nat.succ_pos _
  | case7 => nofun

/-- A closed string is the same whatever stands behind it. -/
theorem stringLength_take {text : List Char} (h : (stringLength text).2 = true) (y : List Char) :
    stringLength (text.take (stringLength text).1 ++ y) = stringLength text := by
  revert h
  fun_induction stringLength text with
  | case1 rest => exact fun _ => rfl
  | case2 rest n closed hn ih =>
    intro h
    rw [hn] at ih
    rw [List.take_succ_cons, List.take_succ_cons, List.take_succ_cons, List.cons_append,
      List.cons_append, List.cons_append, stringLength, ih h]
  | case3 c rest hne n closed hn ih =>
    intro h
    have hpos := @stringLength_pos rest (by rw [hn]; exact h)
    rw [hn] at ih hpos
    rw [List.take_succ_cons, List.take_succ_cons, List.cons_append, List.cons_append, stringLength,
      ih h]
    -- the line feed that would make a pair stands in what is taken
    intro tail hc ht
    cases n with
    | zero => exact absurd hpos (Nat.lt_irrefl 0)
    | succ n =>
      cases rest with
      | nil => cases hn
      | cons d rest =>
        obtain ⟨rfl, -⟩ := List.cons.inj ht
        exact hne rest hc rfl
  | case4 => nofun
  | case5 c rest _ _ _ _ hc => nofun
  | case6 c rest hquote hcr hesc hslash hc n closed hn ih =>
    intro h
    rw [hn] at ih
    have hb : c ≠ '\\' := by
      intro hb
      cases rest with
      | nil => exact hslash hb rfl
      | cons d rest => exact hesc d rest hb rfl
    rw [List.take_succ_cons, List.cons_append, stringLength, if_neg hc, ih h]
    · exact hquote
    · exact fun _ hs => absurd hs hb
    · exact fun _ _ hs => absurd hs hb
    · exact fun hs => absurd hs hb
  | case7 => nofun

theorem stringLength_endOfLine {u x : List Char} (h : (stringLength (u ++ x)).2 = true)
    (hlen : (stringLength (u ++ x)).1 ≤ u.length) (y : List Char) :
    stringLength (u ++ y) = stringLength (u ++ x) := by
  have htake := stringLength_take h (u.drop (stringLength (u ++ x)).1 ++ y)
  rw [List.take_append_of_le_length hlen, ← List.append_assoc, List.take_append_drop] at htake
  exact htake

/-! ## Backticks, backslashes and apostrophes -/

/-- The name that a backslash or a backtick starts: none, or with its class. -/
def escapedWord (cls : LexemeClass) (marks : Nat) (fault : Nat) (name : List Char) : Word :=
  match name with
  | [] => ⟨.unknown, 1, [], [fault]⟩
  | name => ⟨cls, marks + name.length, name, []⟩

theorem backtick_backslash {v : List Char} (h : ∀ w, v ≠ '\x60' :: '"' :: w) :
    backtick ('\\' :: v) = escapedWord .directive 2 0 (v.takeWhile isEscapedPart) := by
  rw [backtick]
  · rfl
  · exact h

theorem backtick_name {v : List Char}
    (h : ∀ c ∈ v.head?, c ≠ '"' ∧ c ≠ '\x60' ∧ c ≠ '\\') :
    backtick v = escapedWord .directive 1 0 (v.takeWhile isNamePart) := by
  rw [backtick.eq_def]
  split
  · exact absurd rfl (h '"' rfl).1
  · exact absurd rfl (h '\x60' rfl).2.1
  · exact absurd rfl (h '\\' rfl).2.2
  · exact absurd rfl (h '\\' rfl).2.2
  · rfl

theorem escapedWord_endOfLine {cls : LexemeClass} {marks fault : Nat} {p : Char → Bool}
    {u x : List Char}
    (h : (escapedWord cls marks fault ((u ++ x).takeWhile p)).length ≤ u.length + marks)
    (hf : (escapedWord cls marks fault ((u ++ x).takeWhile p)).faults = [])
    (hp : p '\n' = false) :
    (u ++ ['\n']).takeWhile p = (u ++ x).takeWhile p := by
  refine takeWhile_eq_of_length_le ?_ fun c hc => ?_
  · revert h hf
    cases (u ++ x).takeWhile p with
    | nil => exact fun _ _ => Nat.zero_le _
    | cons c name =>
      intro h _
      have : marks + (c :: name).length ≤ u.length + marks := h
      omega
  · obtain rfl := Option.some.inj hc
    exact hp

/-- Where a backslash is no mark of a quote in `u ++ x`, it is none at the end of a line. -/
theorem not_quoteMark_endOfLine {u x : List Char} (h : ∀ w, u ++ x ≠ '\x60' :: '"' :: w) :
    ∀ w, u ++ ['\n'] ≠ '\x60' :: '"' :: w := by
  intro w hw
  match u with
  | [] => exact absurd (List.cons.inj hw).1 (by decide)
  | [a] => exact absurd (List.cons.inj (List.cons.inj hw).2).1 (by decide)
  | a :: b :: u =>
    obtain ⟨rfl, hw'⟩ := List.cons.inj hw
    obtain ⟨rfl, -⟩ := List.cons.inj hw'
    exact h (u ++ x) rfl

theorem backtick_of_ends {x : List Char} (hx : Ends x) : backtick x = ⟨.unknown, 1, [], [0]⟩ := by
  have hne : ∀ c ∈ x.head?, c ≠ '"' ∧ c ≠ '\x60' ∧ c ≠ '\\' := by
    intro c hc
    have hmark := hx.head (p := fun c => c == '"' || c == '\x60' || c == '\\')
      (by decide) c hc
    simp only [Bool.or_eq_false_iff, beq_eq_false_iff_ne] at hmark
    exact ⟨hmark.1.1, hmark.1.2, hmark.2⟩
  rw [backtick_name hne]
  cases x with
  | nil => rfl
  | cons c x =>
    have hc : isNamePart c = false := hx.head (by decide) c rfl
    rw [List.takeWhile_cons_of_neg (Bool.eq_false_iff.mp hc)]
    rfl

theorem backtick_backslash_endOfLine {u x : List Char}
    (h : (backtick ('\\' :: (u ++ x))).length ≤ u.length + 2)
    (hf : (backtick ('\\' :: (u ++ x))).faults = []) :
    backtick ('\\' :: (u ++ ['\n'])) = backtick ('\\' :: (u ++ x)) := by
  by_cases hw : ∃ w, u ++ x = '\x60' :: '"' :: w
  · obtain ⟨w, hw⟩ := hw
    rw [hw] at h
    match u with
    | [] => exact absurd (show 4 ≤ 2 from h) (by decide)
    | [a] => exact absurd (show 4 ≤ 3 from h) (by decide)
    | a :: b :: u =>
      obtain ⟨rfl, hw'⟩ := List.cons.inj hw
      obtain ⟨rfl, -⟩ := List.cons.inj hw'
      rfl
  · have hw : ∀ w, u ++ x ≠ '\x60' :: '"' :: w := fun w he => hw ⟨w, he⟩
    rw [backtick_backslash hw] at h hf
    rw [backtick_backslash hw, backtick_backslash (not_quoteMark_endOfLine hw),
      escapedWord_endOfLine h hf (by decide)]

theorem backtick_endOfLine {u x : List Char} (hx : Ends x)
    (h : (backtick (u ++ x)).length ≤ u.length + 1) (hf : (backtick (u ++ x)).faults = []) :
    backtick (u ++ ['\n']) = backtick (u ++ x) := by
  cases u with
  | nil =>
    rw [List.nil_append, backtick_of_ends hx] at hf
    cases hf
  | cons c u =>
    rw [List.cons_append] at h hf
    rw [List.cons_append, List.cons_append]
    by_cases hq : c = '"'
    · subst hq
      rfl
    by_cases ht : c = '\x60'
    · subst ht
      rfl
    by_cases hb : c = '\\'
    · subst hb
      exact backtick_backslash_endOfLine h hf
    · have hname : ∀ y, ∀ d ∈ (c :: (u ++ y)).head?, d ≠ '"' ∧ d ≠ '\x60' ∧ d ≠ '\\' := by
        intro y d hd
        obtain rfl := Option.some.inj hd
        exact ⟨hq, ht, hb⟩
      rw [backtick_name (hname x)] at h hf
      rw [backtick_name (hname x), backtick_name (hname _), ← List.cons_append, ← List.cons_append,
        escapedWord_endOfLine h hf (by decide)]

theorem backslash_name {v : List Char} (h : ∀ c ∈ v.head?, Scan.endsLine c = false) :
    backslash v = escapedWord .identifier 1 1 (v.takeWhile isEscapedPart) := by
  rw [backslash.eq_def]
  split
  · exact absurd (h '\r' rfl) (by decide)
  · exact absurd (h '\r' rfl) (by decide)
  · exact absurd (h '\n' rfl) (by decide)
  · rfl

theorem length_backslash_of_endsLine {c : Char} (hc : Scan.endsLine c = true) (v : List Char) :
    2 ≤ (backslash (c :: v)).length := by
  rcases endsLine_iff.mp hc with rfl | rfl
  · exact Nat.le_refl 2
  · rw [backslash.eq_def]
    split
    · exact Nat.le_succ 2
    · exact Nat.le_refl 2
    · exact Nat.le_refl 2
    · rename_i h _
      exact absurd rfl (h v)

/-- A backslash without faults takes a name along, or the end of its line. -/
theorem length_backslash {v : List Char} (hf : (backslash v).faults = []) :
    2 ≤ (backslash v).length := by
  cases v with
  | nil => cases hf
  | cons c v =>
    cases hc : Scan.endsLine c with
    | true => exact length_backslash_of_endsLine hc v
    | false =>
      have hhead : ∀ d ∈ (c :: v).head?, Scan.endsLine d = false := fun d hd =>
        Option.some.inj hd ▸ hc
      rw [backslash_name hhead] at hf ⊢
      cases ht : (c :: v).takeWhile isEscapedPart with
      | nil =>
        rw [ht] at hf
        cases hf
      | cons d name =>
        show 2 ≤ 1 + (name.length + 1)
        omega

theorem backslash_return {d : Char} (hd : d ≠ '\n') (v : List Char) :
    backslash ('\r' :: d :: v) = ⟨.lineContinuation, 2, [], []⟩ := by
  rw [backslash]
  rintro tail ht
  exact hd (List.cons.inj ht).1

theorem backslash_endOfLine {u x : List Char} (hlast : u.getLast? ≠ some '\r')
    (h : (backslash (u ++ x)).length ≤ u.length + 1) (hf : (backslash (u ++ x)).faults = []) :
    backslash (u ++ ['\n']) = backslash (u ++ x) := by
  cases u with
  | nil => exact absurd (Nat.le_trans (length_backslash hf) h) (by decide)
  | cons c u =>
    cases hc : Scan.endsLine c with
    | true =>
      rcases endsLine_iff.mp hc with rfl | rfl
      · rfl
      · cases u with
        | nil => exact absurd rfl hlast
        | cons d u =>
          by_cases hd : d = '\n'
          · subst hd
            rfl
          · exact (backslash_return hd _).trans (backslash_return hd _).symm
    | false =>
      have hhead : ∀ y, ∀ d ∈ (c :: u ++ y).head?, Scan.endsLine d = false := fun y d hd =>
        Option.some.inj hd ▸ hc
      rw [backslash_name (hhead x)] at h hf
      rw [backslash_name (hhead x), backslash_name (hhead _), escapedWord_endOfLine h hf (by decide)]

theorem apostropheOne?_of_mark {c : Char} (hc : c ∈ triviaMarks) :
    apostrophe?.apostropheOne? c = none := by
  have hnone : (triviaMarks.any fun c => (apostrophe?.apostropheOne? c).isSome) = false := by
    decide +kernel
  exact Option.not_isSome_iff_eq_none.mp (List.any_eq_false.mp hnone c hc)

theorem apostrophe?_of_mark {x : List Char} (hx : Ends x) : apostrophe? x = none := by
  match x with
  | [] => rfl
  | [c] => exact apostropheOne?_of_mark (hx c rfl)
  | c :: d :: x =>
    have hs : (c == 's' || c == 'S') = false :=
      hx.head (p := fun c => c == 's' || c == 'S') (by decide) c rfl
    rw [apostrophe?, hs]
    exact apostropheOne?_of_mark (hx c rfl)

theorem apostrophe?_one (c : Char) {x : List Char} (hx : Ends x) :
    apostrophe? (c :: x) = apostrophe?.apostropheOne? c := by
  cases x with
  | nil => rfl
  | cons d x =>
    have hb : isBaseLetter d = false := hx.head (by decide) d rfl
    rw [apostrophe?, hb, Bool.and_false]
    rfl

theorem apostrophe?_endOfLine (u : List Char) {x : List Char} (hx : Ends x) :
    apostrophe? (u ++ ['\n']) = apostrophe? (u ++ x) := by
  match u with
  | [] => exact (apostrophe?_of_mark ends_newline).trans (apostrophe?_of_mark hx).symm
  | [c] => exact (apostrophe?_one c ends_newline).trans (apostrophe?_one c hx).symm
  | c :: d :: u => rfl

/-! ## Symbols -/

theorem not_mem_symbols : ∀ s ∈ symbols, '\n' ∉ s.toList := by
  decide +kernel

theorem find?_eq_some_of_imp {α : Type} {p q : α → Bool} {l : List α} {a : α}
    (h : l.find? p = some a) (himp : ∀ b ∈ l, q b = true → p b = true) (ha : q a = true) :
    l.find? q = some a := by
  induction l with
  | nil => cases h
  | cons b l ih =>
    obtain ⟨hb, hl⟩ := List.forall_mem_cons.mp himp
    cases hp : p b with
    | true =>
      rw [List.find?_cons_of_pos hp] at h
      obtain rfl := Option.some.inj h
      rw [List.find?_cons_of_pos ha]
    | false =>
      have hq : ¬q b = true := fun hq => absurd (hb hq) (by rw [hp]; nofun)
      rw [List.find?_cons_of_neg (by rw [hp]; nofun)] at h
      rw [List.find?_cons_of_neg hq, ih h hl]

theorem symbol?_endOfLine {u x : List Char} {w : Word} (h : symbol? (u ++ x) = some w)
    (hlen : w.length ≤ u.length) : symbol? (u ++ ['\n']) = some w := by
  rw [symbol?, Option.map_eq_some_iff] at h
  obtain ⟨s, hs, rfl⟩ := h
  have hprefix := List.find?_some hs
  rw [Text.afterStart?_isSome] at hprefix
  have hu : s.toList <+: u :=
    List.prefix_of_prefix_length_le hprefix (List.prefix_append u x) hlen
  rw [symbol?, find?_eq_some_of_imp hs]
  · rfl
  · intro t ht hq
    rw [Text.afterStart?_isSome] at hq ⊢
    exact (isPrefixOf_endOfLine (not_mem_symbols t ht)
      (List.isPrefixOf_iff_prefix.mpr hq)).trans (List.prefix_append u x)
  · rw [Text.afterStart?_isSome]
    exact hu.trans (List.prefix_append u _)

/-! ## Words -/

theorem word_name {c : Char} (hc : isNameStart c = true) (v : List Char) :
    word (c :: v) =
      ⟨if keywords.contains (String.ofList (c :: v.takeWhile isNamePart)) then .keyword
        else .identifier, (c :: v.takeWhile isNamePart).length, c :: v.takeWhile isNamePart, []⟩ := by
  rw [word, if_pos hc]

theorem word_number {c : Char} (hn : isNameStart c = false) (hc : c.isDigit = true)
    (v : List Char) : word (c :: v) = number (c :: v) := by
  rw [word, if_neg (Bool.eq_false_iff.mp hn), if_pos hc]

/-- The word that is none of the kinds known by their first character. -/
def markWord (c : Char) (v : List Char) : Word :=
  if c == '$' && (v.head?.map isNamePart).getD false then
    ⟨.systemName, 1 + (v.takeWhile isNamePart).length, c :: v.takeWhile isNamePart, []⟩
  else ((if c == '\'' then apostrophe? v else none).orElse fun _ => symbol? (c :: v)).getD
    ⟨.unknown, 1, [], [0]⟩

theorem word_mark {c : Char} (hn : isNameStart c = false) (hd : c.isDigit = false) (hq : c ≠ '"')
    (ht : c ≠ '\x60') (hb : c ≠ '\\') (v : List Char) : word (c :: v) = markWord c v := by
  rw [word, if_neg (Bool.eq_false_iff.mp hn), if_neg (Bool.eq_false_iff.mp hd),
    if_neg (by rw [beq_iff_eq]; exact hq), if_neg (by rw [beq_iff_eq]; exact ht),
    if_neg (by rw [beq_iff_eq]; exact hb), markWord]
  split
  · rfl
  · cases (if c == '\'' then apostrophe? v else none) <;> rfl

theorem word_string (v : List Char) :
    word ('"' :: v) =
      ⟨.string, 1 + (stringLength v).1,
        v.take (if (stringLength v).2 then (stringLength v).1 - 1 else (stringLength v).1),
        badEscapes 1 (v.take (if (stringLength v).2 then (stringLength v).1 - 1
          else (stringLength v).1)) ++
          if (stringLength v).2 then [] else [1 + (stringLength v).1]⟩ := rfl

theorem markWord_endOfLine {c : Char} {u x : List Char} (hx : Ends x)
    (hlen : (markWord c (u ++ x)).length ≤ u.length + 1) (hf : (markWord c (u ++ x)).faults = []) :
    markWord c (u ++ ['\n']) = markWord c (u ++ x) := by
  have hhead : ((u ++ ['\n']).head?.map isNamePart).getD false =
      ((u ++ x).head?.map isNamePart).getD false := by
    cases u with
    | nil => exact (hx.head?_map (by decide)).symm
    | cons d u => rfl
  rw [markWord] at hlen hf
  rw [markWord, markWord, hhead]
  split at hlen
  · rename_i hs
    have htake : ((u ++ x).takeWhile isNamePart).length ≤ u.length := by
      have : 1 + ((u ++ x).takeWhile isNamePart).length ≤ u.length + 1 := hlen
      omega
    rw [if_pos hs, if_pos hs, takeWhile_eq_of_length_le htake (ends_newline.head (by decide))]
  · rename_i hs
    rw [if_neg hs] at hf
    rw [if_neg hs, if_neg hs, apostrophe?_endOfLine u hx]
    cases ha : (if c == '\'' then apostrophe? (u ++ x) else none) with
    | some w => rfl
    | none =>
      rw [ha] at hlen hf
      simp only [Option.orElse_none] at hlen hf ⊢
      cases hsym : symbol? (c :: (u ++ x)) with
      | none =>
        rw [hsym] at hf
        cases hf
      | some w =>
        rw [hsym] at hlen
        have := symbol?_endOfLine (u := c :: u) hsym hlen
        rw [← List.cons_append, this]

theorem string_endOfLine {u x : List Char} (hlen : (word ('"' :: (u ++ x))).length ≤ u.length + 1)
    (hf : (word ('"' :: (u ++ x))).faults = []) :
    word ('"' :: (u ++ ['\n'])) = word ('"' :: (u ++ x)) := by
  rw [word_string] at hlen hf
  cases hc : (stringLength (u ++ x)).2 with
  | false =>
    rw [hc] at hf
    exact absurd (List.append_eq_nil_iff.mp hf).2 (List.cons_ne_nil _ _)
  | true =>
    have hle : (stringLength (u ++ x)).1 ≤ u.length := by
      have : 1 + (stringLength (u ++ x)).1 ≤ u.length + 1 := hlen
      omega
    have htake : ∀ y, (u ++ y).take ((stringLength (u ++ x)).1 - 1) =
        u.take ((stringLength (u ++ x)).1 - 1) := fun y =>
      List.take_append_of_le_length (Nat.le_trans (Nat.sub_le _ _) hle)
    rw [word_string, word_string, stringLength_endOfLine hc hle, hc]
    simp only [if_true, htake]

/-- A word without faults is the same where the text behind it is cut off at the end of its line. -/
theorem word_endOfLine {u x : List Char} (hu : u ≠ []) (hlast : u.getLast? ≠ some '\r')
    (hx : Ends x) (hlen : (word (u ++ x)).length ≤ u.length) (hf : (word (u ++ x)).faults = []) :
    word (u ++ ['\n']) = word (u ++ x) := by
  obtain ⟨c, v, rfl⟩ := List.exists_cons_of_ne_nil hu
  have hmark := ends_newline.head (p := isNamePart) (by decide)
  rw [List.cons_append] at hlen hf
  rw [List.cons_append, List.cons_append]
  cases hn : isNameStart c with
  | true =>
    rw [word_name hn, List.length_cons] at hlen
    rw [word_name hn, word_name hn,
      takeWhile_eq_of_length_le (Nat.le_of_succ_le_succ hlen) hmark]
  | false =>
  cases hd : c.isDigit with
  | true =>
    rw [word_number hn hd] at hlen
    rw [word_number hn hd, word_number hn hd]
    exact number_endOfLine (u := c :: v) hx hlen
  | false =>
  by_cases hq : c = '"'
  · subst hq
    exact string_endOfLine hlen hf
  by_cases ht : c = '\x60'
  · subst ht
    exact backtick_endOfLine hx hlen hf
  by_cases hb : c = '\\'
  · subst hb
    refine backslash_endOfLine (fun h => hlast ?_) hlen hf
    rw [List.getLast?_cons, h]
    rfl
  · rw [word_mark hn hd hq ht hb] at hlen hf
    rw [word_mark hn hd hq ht hb, word_mark hn hd hq ht hb, markWord_endOfLine hx hlen hf]

end HdlLint.Verilog.Lexer
