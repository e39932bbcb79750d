import HdlLint.Proofs.Define.Line

/-!
# Definitions that can be handed over

A definition can be handed over where its name and its arguments are plain, no equals sign stands in
front of its text, and it has a text (`CanPass`). Behind such a name and such arguments the text is
read from where it stands on the line (`exists_definitionOf`).
-/

namespace HdlLint.Define

open Verilog (Lexeme Formal)
open Verilog.Lexer (Lexes textOf isPlainName behindTrivia)
open Verilog.TokenStream
open Text (strip)

/-- A definition that can be handed over: its name is plain, its arguments are plain names behind
comments without an equals sign, and it has a text. -/
structure CanPass (d : Define) : Prop where
  identifier : isPlainName d.identifier.toList = true
  arguments : ∀ a ∈ d.arguments.map String.toList, isPlainName (behindTrivia a) = true ∧ '=' ∉ a
  text : d.text ≠ none

/-! ## The arguments on the line -/

/-- Arguments up to the parenthesis that closes them. -/
def closedText : List Char → List (List Char) → List Char
  | a, [] => a ++ [')']
  | a, b :: as => a ++ ',' :: closedText b as

/-- Arguments in their parentheses, of which there are none without arguments. -/
def argumentsText : List (List Char) → List Char
  | [] => []
  | a :: as => '(' :: closedText a as

theorem intercalate_append_closing (a : List Char) (as : List (List Char)) :
    [','].intercalate (a :: as) ++ [')'] = closedText a as := by
  induction as generalizing a with
  | nil => rw [List.intercalate_singleton, closedText]
  | cons b as ih =>
    rw [List.intercalate_cons_cons, List.append_assoc, ih, closedText, List.append_assoc]
    rfl

theorem headText_eq (d : Define) :
    headText d = d.identifier.toList ++ argumentsText (d.arguments.map String.toList) := by
  rw [headText]
  cases d.arguments with
  | nil => exact (List.append_nil _).symm
  | cons a as => rw [if_neg (List.cons_ne_nil _ _), List.map_cons, intercalate_append_closing,
      argumentsText]

theorem not_mem_closedText {a : List Char} {as : List (List Char)}
    (h : ∀ b ∈ a :: as, '=' ∉ b) : '=' ∉ closedText a as := by
  induction as generalizing a with
  | nil =>
    rw [closedText, List.mem_append, not_or]
    exact ⟨h a List.mem_cons_self, by decide⟩
  | cons b as ih =>
    obtain ⟨ha, has⟩ := List.forall_mem_cons.mp h
    rw [closedText, List.mem_append, List.mem_cons, not_or, not_or]
    exact ⟨ha, by decide, ih has⟩

theorem not_mem_argumentsText {as : List (List Char)} (h : ∀ a ∈ as, '=' ∉ a) :
    '=' ∉ argumentsText as := by
  cases as with
  | nil => nofun
  | cons a as =>
    rw [argumentsText, List.mem_cons, not_or]
    exact ⟨by decide, not_mem_closedText h⟩

theorem not_mem_of_isPlainName {name : List Char} (h : isPlainName name = true) : '=' ∉ name :=
  fun hmem => absurd (Verilog.Lexer.isNamePart_of_isPlainName h '=' hmem) (by decide)

theorem not_mem_headText {d : Define} (hname : isPlainName d.identifier.toList = true)
    (hargs : ∀ a ∈ d.arguments.map String.toList, '=' ∉ a) : '=' ∉ headText d := by
  rw [headText_eq, List.mem_append, not_or]
  exact ⟨not_mem_of_isPlainName hname, not_mem_argumentsText hargs⟩

/-! ## Reading the arguments -/

/-- A plain argument is read as a formal argument without a default. -/
theorem exists_formalOf {a v : List Char} {c : Char} {ls : List Lexeme}
    (ha : isPlainName (behindTrivia a) = true) (hc : c = ',' ∨ c = ')')
    (h : Lexes (a ++ c :: v) ls) :
    ∃ l k ls', formalOf ls = some ((⟨l.value, none⟩, [l]), k :: ls') ∧ textOf [l] = a ∧
      k.faults = [] ∧ k.isSymbol (String.singleton c) = true ∧ Lexes v ls' := by
  have hne : behindTrivia a ≠ [] := fun hnil => by rw [hnil] at ha; cases ha
  obtain ⟨t, hta, ht⟩ := Verilog.Lexer.exists_trivial_of_behindTrivia hne
  have hpart : ∀ d ∈ (c :: v).head?, Verilog.Lexer.isNamePart d = false := by
    intro d hd
    obtain rfl := Option.some.inj hd
    rcases hc with rfl | rfl <;> rfl
  have hmark : Verilog.Lexer.isEscapedPart c = true ∧ c ≠ '/' := by
    rcases hc with rfl | rfl <;> exact ⟨rfl, by decide⟩
  rw [hta, List.append_assoc] at h
  obtain ⟨l, ls₁, rfl, hl, h₁⟩ := h.exists_spells ht hne
    (Verilog.Lexer.trivia?_of_isPlainName ha _) (Verilog.Lexer.word_plain ha hpart)
  obtain ⟨k, ls₂, rfl, hk, h₂⟩ := @Lexes.exists_spells ls₁ [] [c] [c] v .symbol h₁ .nil
    (List.cons_ne_nil _ _) (Verilog.Lexer.trivia?_of_isEscapedPart hmark.1 hmark.2 v)
    (Verilog.Lexer.word_separator hc v)
  have hname : isName l = true := by
    rw [isName, hl.cls]
    split <;> rfl
  have hraw : k.raw = String.singleton c := by
    rw [← String.toList_inj, hk.raw, String.toList_singleton]
  have hequals : ¬k.isSymbol "=" = true := by
    rw [Lexeme.isSymbol, hraw]
    rcases hc with rfl | rfl <;> simp
  refine ⟨l, k, ls₂, ?_, ?_, hk.faults, ?_, h₂⟩
  · rw [formalOf, if_pos ⟨hl.faults, hname, hk.faults⟩, if_neg hequals]
  · rw [Verilog.Lexer.textOf_singleton, hl.trivia, hl.raw]
    exact hta.symm
  · rw [Lexeme.isSymbol, hk.cls, hraw, beq_self_eq_true]
    rfl

theorem exists_formalsOf {a v : List Char} {as : List (List Char)} {ls : List Lexeme}
    (has : ∀ b ∈ a :: as, isPlainName (behindTrivia b) = true)
    (h : Lexes (closedText a as ++ v) ls) :
    ∃ fs k ls', formalsOf ls = some (fs, k :: ls') ∧ (fs.map fun f => textOf f.2) = a :: as ∧
      k.faults = [] ∧ k.isSymbol ")" = true ∧ Lexes v ls' := by
  induction as generalizing a ls with
  | nil =>
    rw [closedText, List.append_assoc] at h
    obtain ⟨l, k, ls', hformal, htext, hk, hclose, hls'⟩ :=
      exists_formalOf (has a List.mem_cons_self) (.inr rfl) h
    have hcomma : ¬k.isSymbol "," = true := by
      intro hcomma
      rw [Lexeme.isSymbol, Bool.and_eq_true, beq_iff_eq] at hclose hcomma
      exact absurd (hclose.2.symm.trans hcomma.2) (by decide)
    refine ⟨[(⟨l.value, none⟩, [l])], k, ls', ?_, congrArg (· :: []) htext, hk, hclose, hls'⟩
    rw [formalsOf_cons hformal, if_neg fun hne => hne hk, if_neg hcomma]
  | cons b as ih =>
    obtain ⟨ha, has⟩ := List.forall_mem_cons.mp has
    rw [closedText, List.append_assoc] at h
    obtain ⟨l, c, ls₁, hformal, htext, hc, hcomma, hls₁⟩ := exists_formalOf ha (.inl rfl) h
    have hcomma : c.isSymbol "," = true := hcomma
    obtain ⟨fs, k, ls', hformals, hfs, hk, hclose, hls'⟩ := ih has hls₁
    refine ⟨(⟨l.value, none⟩, [l]) :: fs, k, ls', ?_, congrArg₂ List.cons htext hfs, hk, hclose,
      hls'⟩
    rw [formalsOf_cons hformal, if_neg fun hne => hne hc, if_pos hcomma, hformals]
    rfl

/-! ## Reading the line -/

/-- A blank stands in front of the lexeme that is read behind it. -/
theorem not_opens_of_blank {v : List Char} {l : Lexeme} {ls : List Lexeme}
    (h : Lexes (' ' :: v) (l :: ls)) : (l.isSymbol "(" && l.trivia.isEmpty) = false := by
  cases h with
  | done _ hc =>
    rw [Lexeme.isSymbol, hc]
    rfl
  | cons hfront =>
    have hne : l.trivia ≠ [] := by
      intro hnil
      have htext := hfront.text_eq
      have hnone := Verilog.Lexer.trivia?_behindTrivia (' ' :: v)
      rw [hfront.noTrivia.mp hnil, List.nil_append] at htext
      rw [htext, Verilog.Lexer.trivia?_blank rfl] at hnone
      cases hnone
    rw [Bool.and_eq_false_iff, List.isEmpty_eq_false_iff]
    exact .inr hne

/-- No plain argument makes an attribute of the parenthesis in front of it. -/
theorem head_closedText_ne_star {a : List Char} (ha : isPlainName (behindTrivia a) = true)
    (as : List (List Char)) (v : List Char) : (closedText a as ++ v).head? ≠ some '*' := by
  cases a with
  | nil =>
    rw [Verilog.Lexer.behindTrivia_of_none rfl] at ha
    cases ha
  | cons c w =>
    have hc : c ≠ '*' := by
      rintro rfl
      rw [Verilog.Lexer.behindTrivia_of_none
        (Verilog.Lexer.trivia?_of_isEscapedPart rfl (by decide) w)] at ha
      cases ha
    cases as <;> exact fun h => hc (Option.some.inj h)

/-- Plain arguments are read from the line, up to the blank behind them. -/
theorem exists_parenthesizedOf {as : List (List Char)} {v : List Char} {ls : List Lexeme}
    (has : ∀ a ∈ as, isPlainName (behindTrivia a) = true)
    (h : Lexes (argumentsText as ++ ' ' :: v) ls) :
    ∃ formals ls', Lexes (' ' :: v) ls' ∧ ((formals.getD []).map fun f => textOf f.2) = as ∧
      ∀ q, bodyOf false ls' = some q → parenthesizedOf ls = some (formals, ls') := by
  cases as with
  | nil =>
    refine ⟨none, ls, h, rfl, fun q hq => ?_⟩
    cases ls with
    | nil => cases hq
    | cons l ls =>
      rw [bodyOf] at hq
      split at hq
      · cases hq
      · rename_i hf
        rw [parenthesizedOf, if_neg hf, not_opens_of_blank h, if_neg Bool.false_ne_true]
  | cons a as =>
    have hstar : (closedText a as ++ ' ' :: v).head? ≠ some '*' :=
      head_closedText_ne_star (has a List.mem_cons_self) as _
    rw [argumentsText, List.cons_append] at h
    obtain ⟨o, ls₁, rfl, ho, h₁⟩ := @Lexes.exists_spells ls [] ['('] ['('] _ .symbol h .nil
      (List.cons_ne_nil _ _) (Verilog.Lexer.trivia?_of_isEscapedPart rfl (by decide) _)
      (Verilog.Lexer.word_openParenthesis hstar)
    obtain ⟨fs, k, ls', hformals, hfs, hk, hclose, hls'⟩ := exists_formalsOf has h₁
    refine ⟨some fs, ls', hls', hfs, fun q _ => ?_⟩
    have hraw : o.raw = "(" := by
      rw [← String.toList_inj, ho.raw]
      rfl
    have hopens : (o.isSymbol "(" && o.trivia.isEmpty) = true := by
      rw [Lexeme.isSymbol, ho.cls, hraw, ho.noTrivia.mpr rfl]
      rfl
    rw [parenthesizedOf, if_neg fun hne => hne ho.faults, if_pos hopens, hformals]
    exact if_pos ⟨hk, hclose⟩

/-- Where a line starts with a plain name and plain arguments, a definition is read from it once
its text is. -/
theorem exists_definitionOf {name v : List Char} {as : List (List Char)} {ls : List Lexeme}
    (hname : isPlainName name = true)
    (hfixed : (directiveNames ++ fixedNames).contains (String.ofList name) = false)
    (has : ∀ a ∈ as, isPlainName (behindTrivia a) = true)
    (h : Lexes (' ' :: (name ++ (argumentsText as ++ ' ' :: v))) ls) :
    ∃ l formals ls', l.value = String.ofList name ∧
      ((formals.getD []).map fun f => textOf f.2) = as ∧ Lexes (' ' :: v) ls' ∧
      ∀ body rest, bodyOf false ls' = some (body, rest) →
        definitionOf ls = some (⟨l, formals, body⟩, rest) := by
  have hpart : ∀ c ∈ (argumentsText as ++ ' ' :: v).head?, Verilog.Lexer.isNamePart c = false := by
    cases as with
    | nil => exact fun c hc => Option.some.inj hc ▸ rfl
    | cons a as => exact fun c hc => Option.some.inj hc ▸ rfl
  have hne : name ≠ [] := fun hnil => by rw [hnil] at hname; cases hname
  obtain ⟨l, ls₁, rfl, hl, h₁⟩ := @Lexes.exists_spells ls [' '] name name _ _ h
    (.blank (.inl rfl) .nil) hne (Verilog.Lexer.trivia?_of_isPlainName hname _)
    (Verilog.Lexer.word_plain hname hpart)
  obtain ⟨formals, ls', hls', hformals, hread⟩ := exists_parenthesizedOf has h₁
  have hvalue : l.value = String.ofList name := by
    rw [← String.toList_inj, hl.value, String.toList_ofList]
  refine ⟨l, formals, ls', hvalue, hformals, hls', fun body rest hbody => ?_⟩
  have hisName : (isName l && l.onSameLine) = true := by
    rw [Bool.and_eq_true, isName, hl.cls, hl.sameLine]
    refine ⟨?_, List.forall_mem_singleton.mpr rfl⟩
    split <;> rfl
  rw [definitionOf, nameOf, if_pos ⟨hl.faults, hisName⟩, Option.bind_some, hvalue, hfixed,
    if_neg Bool.false_ne_true, definitionBehind, hread _ hbody, Option.bind_some, hbody]
  rfl

/-! ## The line of a definition -/

/-- Definitions with the same name, the same arguments and the same text hand over the same. -/
theorem ofDefinition_congr {p q : Definition} (hname : p.name.value = q.name.value)
    (harguments : (p.formals.getD []).map (fun f => strip (textOf f.2)) =
      (q.formals.getD []).map fun f => strip (textOf f.2))
    (hbody : strip (textOf p.body) = strip (textOf q.body)) : ofDefinition p = ofDefinition q := by
  have hstrings : ∀ fs : List (Formal × List Lexeme),
      (fs.map fun f => String.ofList (strip (textOf f.2))) =
        (fs.map fun f => strip (textOf f.2)).map String.ofList := fun fs => by
    rw [List.map_map]
    rfl
  rw [ofDefinition_eq, ofDefinition_eq, hname, hbody, hstrings, hstrings, harguments]

/-- The line of a definition without an equals sign in front of its text. -/
theorem lineText_toPredefine {d : Define} (h : '=' ∉ headText d) {v : List Char}
    (htext : d.text = some (String.ofList v)) :
    lineText d.toPredefine.toList = ' ' :: (d.identifier.toList ++
      (argumentsText (d.arguments.map String.toList) ++ ' ' :: (v ++ ['\n']))) := by
  rw [toList_toPredefine, htext, tailText, lineText_of_mem h, headText_eq, String.toList_ofList,
    List.append_assoc]

/-- The text of a definition is read from a text that goes on behind it. -/
theorem exists_ends_behindBody {text : List Char} {ls rest : List Lexeme} {p : Definition}
    (hlexes : Lexes text ls) (hp : definitionOf ls = some (p, rest)) :
    ∃ after x, bodyOf false after = some (p.body, rest) ∧ rest ≠ [] ∧
      Lexes (textOf p.body ++ x) (p.body ++ rest) ∧ Verilog.Lexer.Ends x := by
  obtain ⟨used, after, rfl, -, -, -, -, -, -, hbody⟩ := definitionOf_eq_some hp
  obtain ⟨hafter, -, e, rest', hrest, -, hstop⟩ := bodyOf_eq_some_iff.mp hbody
  have hne : rest ≠ [] := hrest ▸ List.cons_ne_nil _ _
  rw [hafter, ← List.cons_append] at hlexes
  obtain ⟨y, -, hy⟩ := hlexes.append fun hnil => hne (List.append_eq_nil_iff.mp hnil).2
  obtain ⟨x, rfl, hx⟩ := hy.append hne
  refine ⟨after, x, hbody, hne, hy, ?_⟩
  rw [hrest] at hx
  exact hx.ends (hstop.imp_right And.left)

/-- A definition that can be handed over survives. -/
theorem CanPass.survives {text : List Char} {ls rest : List Lexeme} {p : Definition}
    (h : CanPass (ofDefinition p)) (hlexes : Lexes text ls)
    (hp : definitionOf ls = some (p, rest)) (surroundings : Surroundings)
    (directory : List String) : Survives surroundings directory (ofDefinition p) := by
  obtain ⟨after, x, hbody, hrest, hbodyLexes, hx⟩ := exists_ends_behindBody hlexes hp
  have htext := (ofDefinition_text p).resolve_left fun hnone => h.text hnone.1
  have hne : p.body ≠ [] := fun hnil => h.text (by rw [ofDefinition_eq, hnil]; rfl)
  obtain ⟨ls', hls', hiff⟩ := survives_iff surroundings directory (ofDefinition p)
  have hequals := not_mem_headText h.identifier fun a ha => (h.arguments a ha).2
  rw [lineText_toPredefine hequals htext] at hls'
  obtain ⟨_, _, _, _, _, _, hfixed, _⟩ := definitionOf_eq_some hp
  obtain ⟨l, formals, again, hvalue, hformals, hagain, hread⟩ :=
    exists_definitionOf h.identifier (by rw [String.ofList_toList]; exact hfixed)
      (fun a ha => (h.arguments a ha).1) hls'
  obtain ⟨-, body, e, hbody', -, hstrip⟩ := exists_bodyOf hbody hne hbodyLexes hrest rfl hx hagain
  refine hiff.mpr ⟨⟨l, formals, body⟩, [e], hread body [e] hbody', ofDefinition_congr ?_ ?_ hstrip⟩
  · rw [hvalue, ofDefinition_identifier, String.ofList_toList]
  · have hstripped : (formals.getD []).map (fun f => strip (textOf f.2)) =
        ((formals.getD []).map fun f => textOf f.2).map strip := by
      rw [List.map_map]
      rfl
    rw [hstripped, hformals, ofDefinition_arguments, List.map_map]
    exact List.map_congr_left fun f _ => Text.strip_strip _

end HdlLint.Define
