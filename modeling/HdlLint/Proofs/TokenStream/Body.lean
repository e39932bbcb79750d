import HdlLint.Proofs.TokenStream.Definition
import HdlLint.Proofs.Text.Strip
import HdlLint.Proofs.Verilog.Lexes

/-!
# The text of a definition on a line of its own

Which lexemes the text of a definition takes (`bodyOf_eq_some_iff`), and that they are read again
where that text, without the blanks around it, stands alone on a line (`exists_bodyOf`).
-/

namespace HdlLint.Verilog.TokenStream

open Lexer (textOf textOf_cons textOf_singleton Lexes Front Spells Trivial Ends isEscapedPart trivia?)
open Text (Solid strip isBlank)

/-! ## Which lexemes are taken -/

/-- Lexemes that the text of a definition takes one after another. -/
def Taken : (continued : Bool) → List Lexeme → Prop
  | _, [] => True
  | continued, l :: ls =>
    l.faults = [] ∧ l.cls ≠ .endOfFile ∧ (l.onSameLine = true ∨ continued = true) ∧
      Taken (l.cls = .lineContinuation) ls

/-- Whether the text of a definition goes on behind the line, by its lexemes. -/
def goesOn : (continued : Bool) → List Lexeme → Bool
  | continued, [] => continued
  | _, l :: ls => goesOn (l.cls = .lineContinuation) ls

/-- A lexeme without faults at which the text of a definition is over. -/
def Stops (continued : Bool) (e : Lexeme) : Prop :=
  e.faults = [] ∧ (e.cls = .endOfFile ∨ (e.onSameLine = false ∧ continued = false))

theorem stops_iff {continued : Bool} {e : Lexeme} :
    Stops continued e ↔ e.faults = [] ∧
      (e.cls = .endOfFile || (!e.onSameLine && !continued)) = true := by
  simp only [Stops, Bool.or_eq_true, decide_eq_true_eq, Bool.and_eq_true, Bool.not_eq_true']

theorem bodyOf_stop {continued : Bool} {e : Lexeme} {ls : List Lexeme} (h : Stops continued e) :
    bodyOf continued (e :: ls) = some ([], e :: ls) := by
  rw [stops_iff] at h
  rw [bodyOf, if_neg fun hne => hne h.1, if_pos h.2]

theorem bodyOf_append {continued : Bool} {body rest : List Lexeme} (h : Taken continued body) :
    bodyOf continued (body ++ rest) =
      (bodyOf (goesOn continued body) rest).map fun p => (body ++ p.1, p.2) := by
  induction body generalizing continued with
  | nil =>
    rw [List.nil_append, goesOn]
    cases bodyOf continued rest <;> rfl
  | cons l body ih =>
    obtain ⟨hf, hc, hline, hbody⟩ := h
    rw [List.cons_append, bodyOf, if_neg fun hne => hne hf, if_neg, ih hbody, Option.map_map, goesOn]
    · rfl
    · simp only [Bool.or_eq_true, decide_eq_true_eq, Bool.and_eq_true, Bool.not_eq_true', not_or,
        not_and, Bool.not_eq_false]
      refine ⟨hc, fun hsame => hline.resolve_left fun hl => ?_⟩
      rw [hsame] at hl
      cases hl

theorem bodyOf_eq_some_iff {continued : Bool} {ls body rest : List Lexeme} :
    bodyOf continued ls = some (body, rest) ↔
      ls = body ++ rest ∧ Taken continued body ∧
        ∃ e rest', rest = e :: rest' ∧ Stops (goesOn continued body) e := by
  constructor
  · intro h
    induction ls generalizing continued body with
    | nil => cases h
    | cons l ls ih =>
      rw [bodyOf] at h
      split at h
      · cases h
      · rename_i hf
        have hf := Decidable.not_not.mp hf
        split at h
        · rename_i hstop
          cases h
          exact ⟨rfl, trivial, l, ls, rfl, stops_iff.mpr ⟨hf, hstop⟩⟩
        · rename_i hstop
          obtain ⟨p, hp, heq⟩ := Option.map_eq_some_iff.mp h
          obtain ⟨rfl, rfl⟩ := Prod.mk.inj heq
          obtain ⟨rfl, htaken, hrest⟩ := ih hp
          refine ⟨rfl, ⟨hf, fun hc => hstop (by rw [hc]; rfl), ?_, htaken⟩, hrest⟩
          cases hs : l.onSameLine with
          | true => exact .inl rfl
          | false =>
            cases continued with
            | true => exact .inr rfl
            | false => exact absurd (by rw [hs]; exact Bool.or_true _) hstop
  · rintro ⟨rfl, htaken, e, rest', rfl, hstop⟩
    rw [bodyOf_append htaken, bodyOf_stop hstop]
    simp only [Option.map_some, List.append_nil]

theorem Taken.faults {continued : Bool} {body : List Lexeme} (h : Taken continued body) :
    ∀ l ∈ body, l.faults = [] := by
  induction body generalizing continued with
  | nil => nofun
  | cons l body ih => exact List.forall_mem_cons.mpr ⟨h.1, ih h.2.2.2⟩

/-! ## The text that is kept -/

/-- The text of lexemes behind the trivia of the first one, without a line end behind the last
backslash. -/
def keptText : Lexeme → List Lexeme → List Char
  | l, [] => if l.cls = .lineContinuation then ['\\'] else l.raw.toList
  | l, k :: ls => l.raw.toList ++ (triviaText k.trivia ++ keptText k ls)

/-! ## Reading it again -/

theorem isBlank_of_isLineBlank {c : Char} (h : Lexer.isLineBlank c = true) : isBlank c = true := by
  simp only [Lexer.isLineBlank, Bool.or_eq_true, beq_iff_eq] at h
  rcases h with ((rfl | rfl) | rfl) | rfl <;> decide

theorem isBlank_of_endsLine {c : Char} (h : Scan.endsLine c = true) : isBlank c = true := by
  rcases Lexer.endsLine_iff.mp h with rfl | rfl <;> decide

theorem solid_of_isEscapedPart {v : List Char} (hne : v ≠ [])
    (hhead : ∀ c ∈ v.head?, isEscapedPart c = true)
    (hlast : ∀ c ∈ v.getLast?, isEscapedPart c = true) : Solid v :=
  ⟨hne, fun c hc => Lexer.isBlank_of_isEscapedPart (hhead c hc),
    fun c hc => Lexer.isBlank_of_isEscapedPart (hlast c hc)⟩

/-- What is kept of the text of lexemes starts and ends with visible characters, and only line ends
are missing behind it. -/
theorem keptText_spec {text : List Char} {l : Lexeme} {ls after : List Lexeme}
    (h : Lexes text ((l :: ls) ++ after)) (hne : after ≠ []) (hf : ∀ k ∈ l :: ls, k.faults = []) :
    keptText l ls ≠ [] ∧ (∀ c ∈ (keptText l ls).head?, isEscapedPart c = true) ∧
      (∀ c ∈ (keptText l ls).getLast?, isEscapedPart c = true) ∧
      ∃ y, textOf (l :: ls) = triviaText l.trivia ++ (keptText l ls ++ y) ∧
        ∀ c ∈ y, Scan.endsLine c = true := by
  induction ls generalizing l text with
  | nil =>
    obtain ⟨rest, hfront, -⟩ := h.front hne
    have hl : l.faults = [] := hf l List.mem_cons_self
    rw [textOf_singleton, keptText]
    by_cases hc : l.cls = .lineContinuation
    · obtain ⟨y, hraw, -, hy⟩ := hfront.raw_lineContinuation hl hc
      rw [if_pos hc, hraw]
      exact ⟨List.cons_ne_nil _ _, fun c hc => Option.some.inj hc ▸ rfl,
        fun c hc => Option.some.inj hc ▸ rfl, y, rfl, hy⟩
    · rw [if_neg hc]
      refine ⟨hfront.raw_ne_nil, hfront.raw_head hl, hfront.raw_last hl hc, [], ?_, nofun⟩
      rw [List.append_nil]
  | cons k ls ih =>
    obtain ⟨rest, hfront, hls⟩ := h.front (List.cons_ne_nil _ _)
    obtain ⟨hl, hf⟩ := List.forall_mem_cons.mp hf
    obtain ⟨hkept, -, hlast, y, htext, hy⟩ := ih hls hf
    obtain ⟨c, v, hraw⟩ := List.exists_cons_of_ne_nil hfront.raw_ne_nil
    have hhead := hfront.raw_head hl
    rw [keptText, textOf_cons, htext]
    rw [hraw] at hhead ⊢
    refine ⟨List.cons_ne_nil _ _, hhead, fun d hd => hlast d ?_, y, ?_, hy⟩
    · rw [List.getLast?_append, List.getLast?_append, List.getLast?_eq_some_getLast hkept] at hd
      rw [List.getLast?_eq_some_getLast hkept]
      exact hd
    · simp only [List.append_assoc]

/-- A lexeme that is written again behind other trivia is taken again, where nothing in them ends a
line that the lexeme must not leave. -/
theorem Taken.of_spells {continued : Bool} {l l' : Lexeme} {ls body : List Lexeme}
    {t raw value : List Char} (h : Taken continued (l :: ls)) (hl' : Spells l' t raw value l.cls)
    (hline : l.onSameLine = true → ∀ c ∈ t, Scan.endsLine c = false)
    (hbody : Taken (l.cls = .lineContinuation) body) : Taken continued (l' :: body) := by
  obtain ⟨-, hc, hsame, -⟩ := h
  rw [← hl'.cls] at hc hbody
  exact ⟨hl'.faults, hc, hsame.imp_left fun hs => hl'.sameLine.mpr (hline hs), hbody⟩

/-- The last lexeme of a text is written again where it stands, as far as it is kept, at the end of a
line. -/
theorem exists_last {text x t : List Char} {l : Lexeme} {again : List Lexeme} (h : Front l text x)
    (hf : l.faults = []) (hx : Ends x) (ht : Trivial t)
    (hagain : Lexes (t ++ (keptText l [] ++ ['\n'])) again) :
    ∃ l' e value y, again = [l', e] ∧ Spells l' t (keptText l [] ++ y) value l.cls ∧
      (e.cls = .endOfFile ∧ e.faults = []) ∧ ∀ c ∈ y, Scan.endsLine c = true := by
  rw [keptText] at hagain ⊢
  by_cases hc : l.cls = .lineContinuation
  · -- the line end that is missing behind the backslash is that of the line
    rw [if_pos hc] at hagain ⊢
    obtain ⟨l', ls', rfl, hl', hls'⟩ := @Lexes.exists_spells again t ['\\', '\n'] [] []
      .lineContinuation hagain ht (List.cons_ne_nil _ _) rfl rfl
    obtain ⟨e, rfl, he⟩ := hls'.of_behindTrivia (Lexer.behindTrivia_of_none rfl) List.not_mem_nil
    exact ⟨l', e, [], ['\n'], rfl, hc ▸ hl', he, List.forall_mem_singleton.mpr rfl⟩
  · rw [if_neg hc] at hagain ⊢
    have hlast : (l.raw.toList ++ []).getLast? ≠ some '\r' := by
      rw [List.append_nil]
      exact fun hcr => absurd (h.raw_last hf hc '\r' hcr) (by decide)
    obtain ⟨l', ls', rfl, hl', hls'⟩ :=
      @Front.spells_endOfLine l text [] x t again h hf hx hlast ht hagain
    obtain ⟨e, rfl, he⟩ := hls'.of_behindTrivia (by decide +kernel) (by decide)
    refine ⟨l', e, l.value.toList, [], rfl, ?_, he, nofun⟩
    rw [List.append_nil]
    exact hl'

/-- A lexeme with others behind it is written again where all of them stand, as far as they are kept,
alone on a line. -/
theorem exists_next {text x t : List Char} {l k : Lexeme} {ls after again : List Lexeme}
    (h : Front l text (textOf (k :: ls) ++ x)) (hf : l.faults = [])
    (hls : Lexes (textOf (k :: ls) ++ x) ((k :: ls) ++ after)) (hne : after ≠ [])
    (hfs : ∀ m ∈ k :: ls, m.faults = []) (hx : Ends x) (ht : Trivial t)
    (hagain : Lexes (t ++ (keptText l (k :: ls) ++ ['\n'])) again) :
    ∃ l' ls', again = l' :: ls' ∧ Spells l' t l.raw.toList l.value.toList l.cls ∧
      Lexes (triviaText k.trivia ++ (keptText k ls ++ ['\n'])) ls' := by
  obtain ⟨hkept, -, hlast, y, htext, hy⟩ := keptText_spec hls hne hfs
  -- the text behind the lexeme, as far as it is kept, and what follows it
  have hsplit : textOf (k :: ls) ++ x = (triviaText k.trivia ++ keptText k ls) ++ (y ++ x) := by
    rw [htext]
    simp only [List.append_assoc]
  have hcr : (l.raw.toList ++ (triviaText k.trivia ++ keptText k ls)).getLast? ≠ some '\r' := by
    intro hcr
    rw [List.getLast?_append, List.getLast?_append, List.getLast?_eq_some_getLast hkept] at hcr
    rw [List.getLast?_eq_some_getLast hkept] at hlast
    exact absurd (hlast '\r' hcr) (by decide)
  have hagain' : Lexes (t ++ (l.raw.toList ++
      ((triviaText k.trivia ++ keptText k ls) ++ ['\n']))) again := by
    rw [keptText] at hagain
    simpa only [List.append_assoc] using hagain
  rw [hsplit] at h
  obtain ⟨l', ls', rfl, hl', hls'⟩ :=
    h.spells_endOfLine hf (Lexer.ends_append hy hx) hcr ht hagain'
  rw [List.append_assoc] at hls'
  exact ⟨l', ls', rfl, hl', hls'⟩

/-- The lexemes of a text are taken again where the text stands, as far as it is kept, alone on a
line behind other trivia. -/
theorem exists_taken {text x t : List Char} {l : Lexeme} {ls after again : List Lexeme}
    {continued : Bool} (h : Lexes text ((l :: ls) ++ after)) (hne : after ≠ [])
    (htext : text = textOf (l :: ls) ++ x) (hx : Ends x) (htaken : Taken continued (l :: ls))
    (ht : Trivial t) (hline : l.onSameLine = true → ∀ c ∈ t, Scan.endsLine c = false)
    (hagain : Lexes (t ++ (keptText l ls ++ ['\n'])) again) :
    ∃ body e y, again = body ++ [e] ∧ Taken continued body ∧ (e.cls = .endOfFile ∧ e.faults = []) ∧
      textOf body = t ++ (keptText l ls ++ y) ∧ ∀ c ∈ y, Scan.endsLine c = true := by
  have hl : l.faults = [] := htaken.1
  induction ls generalizing l text t continued again with
  | nil =>
    obtain ⟨rest, hfront, -⟩ := h.front hne
    obtain rfl := hfront.rest_of_textOf htext
    obtain ⟨l', e, value, y, rfl, hl', he, hy⟩ := exists_last hfront hl hx ht hagain
    refine ⟨[l'], e, y, rfl, htaken.of_spells hl' hline trivial, he, ?_, hy⟩
    rw [hl'.textOf_cons, textOf, List.flatMap_nil, List.append_nil]
  | cons k ls ih =>
    obtain ⟨rest, hfront, hls⟩ := h.front (List.cons_ne_nil _ _)
    obtain rfl := hfront.rest_of_textOf htext
    have hrest := htaken.2.2.2
    obtain ⟨_, hfrontk, -⟩ := hls.front fun h => hne (List.append_eq_nil_iff.mp h).2
    obtain ⟨l', ls', rfl, hl', hls'⟩ := exists_next hfront hl hls hne hrest.faults hx ht hagain
    obtain ⟨body, e, y, rfl, hbody, he, hbodyText, hy⟩ := ih hls rfl hrest hfrontk.trivial
      hfrontk.sameLine.mp hls' hrest.1
    refine ⟨l' :: body, e, y, rfl, htaken.of_spells hl' hline hbody, he, ?_, hy⟩
    rw [hl'.textOf_cons, hbodyText, keptText]
    simp only [List.append_assoc]

/-- The text of a definition is read again, without the blanks around it, where it stands alone on a
line. -/
theorem exists_bodyOf {text x : List Char} {ls body after again : List Lexeme} {rest : List Lexeme}
    (hbody : bodyOf false ls = some (body, rest)) (hne : body ≠ [])
    (h : Lexes text (body ++ after)) (hafter : after ≠ []) (htext : text = textOf body ++ x)
    (hx : Ends x) (hagain : Lexes (' ' :: (strip (textOf body) ++ ['\n'])) again) :
    strip (textOf body) ≠ [] ∧ ∃ body' e, bodyOf false again = some (body', [e]) ∧
      e.cls = .endOfFile ∧ strip (textOf body') = strip (textOf body) := by
  obtain ⟨l, ls', rfl⟩ := List.exists_cons_of_ne_nil hne
  obtain ⟨-, htaken, -⟩ := bodyOf_eq_some_iff.mp hbody
  have hsame : l.onSameLine = true := htaken.2.2.1.resolve_right nofun
  obtain ⟨hkept, hhead, hlast, y, hkeptText, hy⟩ := keptText_spec h hafter htaken.faults
  have hsolid := solid_of_isEscapedPart hkept hhead hlast
  obtain ⟨_, hfront, -⟩ := h.front (fun h => hafter (List.append_eq_nil_iff.mp h).2)
  have hstrip : strip (textOf (l :: ls')) =
      (triviaText l.trivia).dropWhile isBlank ++ keptText l ls' := by
    rw [hkeptText]
    exact Text.strip_append _ hsolid fun c hc => isBlank_of_endsLine (hy c hc)
  have hline : ∀ c ∈ ' ' :: (triviaText l.trivia).dropWhile isBlank, Scan.endsLine c = false := by
    refine List.forall_mem_cons.mpr ⟨rfl, fun c hc => hfront.sameLine.mp hsame c ?_⟩
    exact (List.dropWhile_suffix _).mem hc
  rw [hstrip, List.append_assoc] at hagain
  obtain ⟨body', e, y', rfl, htaken', ⟨he, hef⟩, hbodyText, hy'⟩ := exists_taken h hafter htext hx
    htaken (.blank (.inl rfl) (hfront.trivial.dropWhile isBlank (by decide))) (fun _ => hline) hagain
  rw [hstrip]
  refine ⟨fun hnil => hkept (List.append_eq_nil_iff.mp hnil).2, body', e, ?_, he, ?_⟩
  · exact bodyOf_eq_some_iff.mpr ⟨rfl, htaken', e, [], rfl, hef, .inl he⟩
  · rw [hbodyText, Text.strip_append _ hsolid fun c hc => isBlank_of_endsLine (hy' c hc),
      List.dropWhile_cons_of_pos (by decide), Text.dropWhile_idem]

end HdlLint.Verilog.TokenStream
