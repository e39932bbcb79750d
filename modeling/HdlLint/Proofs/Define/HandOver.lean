import HdlLint.Proofs.Define.CanPass

/-!
# Which definitions survive

A definition that the preprocessor reads survives on the line that hands it over where it can be
handed over, and only there (`survives_iff_canPass`). An escaped name would bring a backslash along
that the line does not hold, an escaped argument would run into the comma behind it, the first
equals sign of an argument is a blank on the line, and a definition without a text gets one.
-/

namespace HdlLint.Define

open Verilog (Lexeme Formal Macro)
open Verilog.Lexer (Lexes Front Trivial textOf textOf_cons textOf_singleton textOf_append isPlainName
  behindTrivia isEscapedPart)
open Verilog.TokenStream
open Text (strip isBlank)

/-! ## The name -/

theorem count_lineText (line : List Char) : (lineText line).count '\\' = line.count '\\' := by
  have hhead := Text.head?_dropWhile (fun c => decide (c ≠ '=')) line
  conv => rhs; rw [← List.takeWhile_append_dropWhile (p := fun c => decide (c ≠ '=')) (l := line)]
  rw [lineText]
  revert hhead
  cases line.dropWhile fun c => decide (c ≠ '=') with
  | nil =>
    intro _
    simp
  | cons c text =>
    intro hhead
    obtain rfl : c = '=' := by simpa using hhead c rfl
    simp

theorem count_toPredefine (d : Define) : d.toPredefine.toList.count '\\' =
    (headText d).count '\\' + ((d.text.map String.toList).getD []).count '\\' := by
  rw [toList_toPredefine, List.count_append]
  cases d.text with
  | none => rfl
  | some text => simp [tailText]

/-- The name of a definition that is read is plain, or it is escaped and no arguments follow. -/
theorem named_definition {text : List Char} {ls rest : List Lexeme} {p : Definition}
    (hlexes : Lexes text ls) (hp : definitionOf ls = some (p, rest)) :
    isPlainName p.name.value.toList = true ∨
      (p.name.raw.toList = '\\' :: p.name.value.toList ∧ p.formals = none) := by
  obtain ⟨used, after, rfl, hf, hname, -, -, hused, -, hbody⟩ := definitionOf_eq_some hp
  obtain ⟨rfl, -, e, rest', rfl, -⟩ := bodyOf_eq_some_iff.mp hbody
  obtain ⟨behind, hfront, hbehind⟩ := hlexes.front fun hnil =>
    List.cons_ne_nil _ _ (List.append_eq_nil_iff.mp (List.append_eq_nil_iff.mp hnil).2).2
  refine (hfront.named hf (isName_iff.mp hname)).imp And.left fun ⟨hraw, _, hend⟩ => ⟨hraw, ?_⟩
  generalize p.formals = formals at hused
  cases hused with
  | none => rfl
  | @some o c fs used ho htrivia hfs hc =>
    -- an escaped name would go on with the parenthesis
    obtain ⟨_, hopen, -⟩ := hbehind.front fun hnil =>
      List.cons_ne_nil _ _ (List.append_eq_nil_iff.mp (List.append_eq_nil_iff.mp hnil).2).2
    have htext := hopen.sourceText_append
    rw [sourceText, htrivia, raw_of_isSymbol ho] at htext
    rw [← htext] at hend
    exact absurd (hend '(' rfl) (by decide)

/-- A definition that is read from its line has a plain name: an escaped one would hold a backslash
more than the line. -/
theorem isPlainName_of_line {ls rest : List Lexeme} {p : Definition}
    (hlexes : Lexes (lineText (ofDefinition p).toPredefine.toList) ls)
    (hp : definitionOf ls = some (p, rest)) : isPlainName p.name.value.toList = true := by
  refine (named_definition hlexes hp).resolve_right fun ⟨hraw, hformals⟩ => ?_
  obtain ⟨used, after, rfl, -, -, -, -, -, -, hbody⟩ := definitionOf_eq_some hp
  obtain ⟨rfl, -, e, rest', rfl, -⟩ := bodyOf_eq_some_iff.mp hbody
  have hsplit : p.name :: (used ++ (p.body ++ e :: rest')) =
      (p.name :: (used ++ p.body)) ++ e :: rest' := by
    rw [List.cons_append, List.append_assoc]
  rw [hsplit] at hlexes
  obtain ⟨x, hline, -⟩ := hlexes.append (List.cons_ne_nil _ _)
  have hhead : headText (ofDefinition p) = p.name.value.toList := by
    rw [headText_eq, ofDefinition_arguments, hformals]
    exact List.append_nil _
  have htext : (((ofDefinition p).text.map String.toList).getD []).count '\\' =
      (textOf p.body).count '\\' := by
    rw [← Text.count_strip (by decide) (textOf p.body)]
    rcases ofDefinition_text p with ⟨hnone, hstrip⟩ | hsome
    · rw [hnone, hstrip]
      rfl
    · rw [hsome, Option.map_some, Option.getD_some, String.toList_ofList]
  have hcount := congrArg (List.count '\\') hline
  rw [count_lineText, count_toPredefine, hhead, htext, textOf_cons, hraw, textOf_append] at hcount
  simp only [List.count_append, List.count_cons_self] at hcount
  omega

/-! ## The arguments -/

/-- Trivia without blanks in front of it starts with a slash. -/
theorem head_dropWhile_trivial {t : List Char} (ht : Trivial t) :
    ∀ c ∈ (t.dropWhile isBlank).head?, c = '/' := by
  have hhead := Text.head?_dropWhile isBlank t
  have htrivial := ht.dropWhile isBlank (by decide)
  generalize t.dropWhile isBlank = u at hhead htrivial
  intro c hc
  cases htrivial with
  | nil => cases hc
  | @blank d u hd hu =>
    obtain rfl := Option.some.inj hc
    have hblank : isBlank d = true := hd.elim isBlank_of_isLineBlank isBlank_of_endsLine
    rw [hhead d rfl] at hblank
    cases hblank
  | blockComment => exact (Option.some.inj hc).symm
  | lineComment => exact (Option.some.inj hc).symm

/-- A formal argument starts with a visible character that is no equals sign. -/
theorem exists_cons_formalText {text : List Char} {f : Formal × List Lexeme} {c : Lexeme}
    {ls : List Lexeme} (hf : FormalText f.1 f.2) (hfaults : ∀ l ∈ f.2, l.faults = [])
    (hlexes : Lexes text (f.2 ++ c :: ls)) :
    ∃ d u, strip (textOf f.2) = d :: u ∧ isBlank d = false ∧ d ≠ '=' := by
  obtain ⟨l, more, hls, hname⟩ := hf.exists_cons
  rw [hls] at hfaults hlexes ⊢
  have hl := hfaults l List.mem_cons_self
  obtain ⟨rest, hfront, -⟩ := hlexes.front (by simp)
  obtain ⟨e, raw, hraw⟩ := List.exists_cons_of_ne_nil hfront.raw_ne_nil
  have hblank : isBlank e = false :=
    Verilog.Lexer.isBlank_of_isEscapedPart (hfront.raw_head hl e (by rw [hraw]; rfl))
  have hequals : e ≠ '=' := by
    rintro rfl
    rcases hfront.named hl (isName_iff.mp hname) with ⟨hplain, hvalue⟩ | ⟨hescaped, -⟩
    · rw [← hvalue, hraw] at hplain
      cases hplain
    · rw [hraw] at hescaped
      exact absurd (List.cons.inj hescaped).1 (by decide)
  have hleft : Text.stripLeft (textOf (l :: more)) =
      (triviaText l.trivia).dropWhile isBlank ++ e :: (raw ++ textOf more) := by
    rw [textOf_cons, hraw, Text.stripLeft, Text.dropWhile_append_of_head]
    · rfl
    · exact fun d hd => Option.some.inj hd ▸ hblank
  have hne : strip (textOf (l :: more)) ≠ [] := by
    intro hnil
    have hcount := Text.count_strip hblank (textOf (l :: more))
    rw [hnil, textOf_cons, hraw, List.cons_append, List.count_append,
      List.count_cons_self] at hcount
    exact absurd hcount (by rw [List.count_nil]; omega)
  obtain ⟨d, u, hdu⟩ := List.exists_cons_of_ne_nil hne
  refine ⟨d, u, hdu, Text.head_strip (textOf (l :: more)) d (by rw [hdu]; rfl), ?_⟩
  have hd : d ∈ (Text.stripLeft (textOf (l :: more))).head? :=
    Text.head?_strip (by rw [hdu]; rfl)
  rw [hleft, List.head?_append] at hd
  cases ht : ((triviaText l.trivia).dropWhile isBlank).head? with
  | none =>
    rw [ht] at hd
    exact Option.some.inj hd ▸ hequals
  | some b =>
    rw [ht] at hd
    obtain rfl := Option.some.inj hd
    obtain rfl := head_dropWhile_trivial hfront.trivial b ht
    decide

/-- What is behind a visible character on a line. -/
theorem tail_lineText_cons {c : Char} (hc : c ≠ '=') (text : List Char) :
    (lineText (c :: text)).tail = c :: (lineText text).tail :=
  congrArg List.tail (lineText_append_of_not_mem
    (fun h => hc (List.mem_singleton.mp h).symm : '=' ∉ [c]) text)

theorem mark_of_separator {sep : Char} (h : sep = ',' ∨ sep = ')') :
    isEscapedPart sep = true ∧ sep ≠ '/' ∧ sep ≠ '=' := by
  rcases h with rfl | rfl <;> decide

/-- An argument without an equals sign stands on the line as it is, and so does what separates it from
the next one. -/
theorem tail_lineText_argument {a : List Char} (ha : '=' ∉ a) {sep : Char} (hsep : sep = ',' ∨ sep = ')')
    (w : List Char) : (lineText (a ++ sep :: w)).tail = a ++ sep :: (lineText w).tail := by
  rw [lineText_append_of_not_mem ha, List.tail_cons, tail_lineText_cons (mark_of_separator hsep).2.2]

/-- What separates two arguments is a lexeme of its own. -/
theorem lexes_behindSeparator {u : List Char} {sep : Char} {c : Lexeme} {ls : List Lexeme}
    (hsep : sep = ',' ∨ sep = ')') (h : Lexes (sep :: u) (c :: ls)) : Lexes u ls := by
  obtain ⟨hescaped, hslash, -⟩ := mark_of_separator hsep
  obtain ⟨k, ls', hls', -, hrest⟩ := @Lexes.exists_spells _ [] [sep] [sep] _ .symbol h .nil
    (List.cons_ne_nil _ _) (Verilog.Lexer.trivia?_of_isEscapedPart hescaped hslash _)
    (Verilog.Lexer.word_separator hsep _)
  obtain ⟨rfl, rfl⟩ := List.cons.inj hls'
  exact hrest

section Argument

variable {a w : List Char} {sep : Char} {f : Formal × List Lexeme} {c : Lexeme} {ls : List Lexeme}

/-- The lexemes of an argument that is read from its place on the line are all of its text: no equals
sign is in it, which would be a blank on the line, and no blanks are around it. -/
theorem textOf_eq_of_line (hsep : sep = ',' ∨ sep = ')') (hf : FormalText f.1 f.2)
    (hfaults : ∀ l ∈ f.2, l.faults = []) (htext : strip (textOf f.2) = a)
    (hlexes : Lexes (lineText (a ++ sep :: w)).tail (f.2 ++ c :: ls)) :
    textOf f.2 = a ∧ '=' ∉ a ∧ Lexes (sep :: (lineText w).tail) (c :: ls) := by
  obtain ⟨x, hx, hxls⟩ := hlexes.append (List.cons_ne_nil _ _)
  obtain ⟨y, z, hyz, hy, hz⟩ := Text.exists_strip (textOf f.2)
  obtain ⟨d, u, hdu, hblank, hequals⟩ := exists_cons_formalText hf hfaults hlexes
  rw [htext] at hyz hdu
  -- the line goes on with the argument, so no blanks are in front of it
  obtain rfl : y = [] := by
    cases y with
    | nil => rfl
    | cons b y =>
      rw [hyz, hdu, List.cons_append, tail_lineText_cons hequals] at hx
      have hb := hy b List.mem_cons_self
      rw [← (List.cons.inj hx).1, hblank] at hb
      cases hb
  rw [List.nil_append] at hyz
  rw [hyz] at hx
  have hmem : '=' ∉ a := by
    intro hmem
    obtain ⟨v, v', rfl, hv⟩ := List.eq_append_cons_of_mem hmem
    rw [List.append_assoc, List.cons_append, lineText_of_mem hv, List.tail_cons] at hx
    simp only [List.append_assoc, List.cons_append] at hx
    exact absurd (List.cons.inj (List.append_cancel_left hx)).1 (by decide)
  rw [tail_lineText_argument hmem hsep, List.append_assoc] at hx
  have hbehind := List.append_cancel_left hx
  -- nor behind it, where the line goes on with the separator
  obtain rfl : z = [] := by
    cases z with
    | nil => rfl
    | cons b z =>
      have hb := hz b List.mem_cons_self
      rw [← (List.cons.inj hbehind).1,
        Verilog.Lexer.isBlank_of_isEscapedPart (mark_of_separator hsep).1] at hb
      cases hb
  rw [List.append_nil] at hyz
  obtain rfl : sep :: (lineText w).tail = x := hbehind
  exact ⟨hyz, hmem, hxls⟩

/-- An argument that is read from its place on the line is a plain name without an equals sign. -/
theorem plain_of_formalText (hsep : sep = ',' ∨ sep = ')') (hf : FormalText f.1 f.2)
    (hfaults : ∀ l ∈ f.2, l.faults = []) (htext : strip (textOf f.2) = a)
    (hlexes : Lexes (lineText (a ++ sep :: w)).tail (f.2 ++ c :: ls)) :
    isPlainName (behindTrivia a) = true ∧ '=' ∉ a ∧ Lexes (lineText w).tail ls := by
  obtain ⟨hwritten, hmem, hseparator⟩ := textOf_eq_of_line hsep hf hfaults htext hlexes
  refine ⟨?_, hmem, lexes_behindSeparator hsep hseparator⟩
  obtain ⟨formal, used⟩ := f
  cases hf with
  | default hl he =>
    refine absurd ?_ hmem
    rw [← hwritten, textOf_cons, textOf_cons, raw_of_isSymbol he]
    simp
  | @plain l hl =>
    have hlf := hfaults l List.mem_cons_self
    rw [tail_lineText_argument hmem hsep] at hlexes
    obtain ⟨behind, hfront, -⟩ := hlexes.front (List.cons_ne_nil _ _)
    obtain rfl := hfront.rest_of_textOf (by rw [hwritten])
    rcases hfront.named hlf (isName_iff.mp hl) with ⟨hplain, hvalue⟩ | ⟨-, -, hend⟩
    · rw [← hwritten, textOf_singleton, Verilog.Lexer.behindTrivia_append hfront.trivial, hvalue,
        Verilog.Lexer.behindTrivia_of_none]
      · exact hplain
      · rw [← List.append_nil l.value.toList]
        exact Verilog.Lexer.trivia?_of_isPlainName hplain []
    · -- an escaped name would go on with what is behind the argument
      have hescaped := hend sep rfl
      rw [(mark_of_separator hsep).1] at hescaped
      cases hescaped

end Argument

/-- The arguments that are read from their place on the line are plain. -/
theorem plain_of_formalsText {a v : List Char} {as : List (List Char)} {e : Lexeme}
    {fs : List (Formal × List Lexeme)} {used after : List Lexeme} (hfs : FormalsText fs used)
    (hfaults : ∀ l ∈ used, l.faults = []) (htext : (fs.map fun f => strip (textOf f.2)) = a :: as)
    (hlexes : Lexes (lineText (closedText a as ++ v)).tail (used ++ e :: after)) :
    ∀ b ∈ a :: as, isPlainName (behindTrivia b) = true ∧ '=' ∉ b := by
  induction hfs generalizing a as with
  | @last f hf =>
    obtain ⟨ha, has⟩ := List.cons.inj htext
    obtain rfl : as = [] := has.symm
    rw [closedText, List.append_assoc] at hlexes
    obtain ⟨hplain, hmem, -⟩ := plain_of_formalText (.inr rfl) hf hfaults ha hlexes
    exact List.forall_mem_singleton.mpr ⟨hplain, hmem⟩
  | @cons f fs c used hf hc hfs ih =>
    obtain ⟨ha, has⟩ := List.cons.inj htext
    obtain ⟨b, as, rfl⟩ := List.exists_cons_of_ne_nil fun hnil : as = [] =>
      hfs.ne_nil (List.map_eq_nil_iff.mp (has.trans hnil))
    rw [closedText, List.append_assoc, List.cons_append] at hlexes
    rw [List.append_assoc, List.cons_append] at hlexes
    obtain ⟨hf₁, hused⟩ := List.forall_mem_append.mp hfaults
    obtain ⟨hplain, hmem, hrest⟩ := plain_of_formalText (.inl rfl) hf hf₁ ha hlexes
    exact List.forall_mem_cons.mpr ⟨⟨hplain, hmem⟩,
      ih (List.forall_mem_cons.mp hused).2 has hrest⟩

/-- The arguments of a definition that is read from its line are plain. -/
theorem plain_of_parenthesizedText {v : List Char} {as : List (List Char)}
    {formals : Option (List (Formal × List Lexeme))} {e : Lexeme} {used after : List Lexeme}
    (hused : ParenthesizedText formals used) (hfaults : ∀ l ∈ used, l.faults = [])
    (htext : ((formals.getD []).map fun f => strip (textOf f.2)) = as)
    (hlexes : Lexes (lineText (argumentsText as ++ v)).tail (used ++ e :: after)) :
    ∀ b ∈ as, isPlainName (behindTrivia b) = true ∧ '=' ∉ b := by
  cases hused with
  | none =>
    obtain rfl : as = [] := htext.symm
    nofun
  | @some o c fs used ho htrivia hfs hc =>
    cases as with
    | nil => nofun
    | cons a as =>
      rw [argumentsText, List.cons_append, tail_lineText_cons (by decide), List.cons_append,
        List.append_assoc] at hlexes
      obtain ⟨behind, hfront, hbehind⟩ := hlexes.front (by simp)
      have hsource := hfront.sourceText_append
      rw [sourceText, htrivia, raw_of_isSymbol ho] at hsource
      obtain rfl := (List.cons.inj hsource).2
      obtain ⟨hf, -⟩ := List.forall_mem_append.mp (List.forall_mem_cons.mp hfaults).2
      exact plain_of_formalsText hfs hf htext hbehind

/-! ## The definition -/

/-- A blank or a parenthesis is behind the name on the line. -/
theorem head_tail_lineText (as : List (List Char)) (text : Option String) :
    ∀ c ∈ (lineText (argumentsText as ++ tailText text)).tail.head?,
      Verilog.Lexer.isNamePart c = false := by
  intro c hc
  cases as with
  | nil => cases text <;> exact Option.some.inj hc ▸ rfl
  | cons a as =>
    rw [argumentsText, List.cons_append, tail_lineText_cons (by decide)] at hc
    exact Option.some.inj hc ▸ rfl

/-- Behind a plain name a definition that is read from its line has plain arguments. -/
theorem plain_of_line {ls rest : List Lexeme} {p : Definition}
    (hlexes : Lexes (lineText (ofDefinition p).toPredefine.toList) ls)
    (hp : definitionOf ls = some (p, rest))
    (hname : isPlainName (ofDefinition p).identifier.toList = true) :
    ∀ a ∈ (ofDefinition p).arguments.map String.toList,
      isPlainName (behindTrivia a) = true ∧ '=' ∉ a := by
  obtain ⟨used, after, rfl, -, -, -, -, hused, hfaults, hbody⟩ := definitionOf_eq_some hp
  obtain ⟨rfl, -, e, rest', rfl, -⟩ := bodyOf_eq_some_iff.mp hbody
  obtain ⟨k, behind, hbehind⟩ : ∃ k behind, p.body ++ e :: rest' = k :: behind :=
    List.exists_cons_of_ne_nil (by simp)
  rw [toList_toPredefine, headText_eq, List.append_assoc,
    lineText_append_of_not_mem (not_mem_of_isPlainName hname), hbehind] at hlexes
  have hne : (ofDefinition p).identifier.toList ≠ [] := fun hnil => by
    rw [hnil] at hname
    cases hname
  obtain ⟨l, ls', hls', -, hrest⟩ := @Lexes.exists_spells _ [' '] _ _ _ _ hlexes
    (.blank (.inl rfl) .nil) hne (Verilog.Lexer.trivia?_of_isPlainName hname _)
    (Verilog.Lexer.word_plain hname (head_tail_lineText _ _))
  obtain ⟨-, rfl⟩ := List.cons.inj hls'
  exact plain_of_parenthesizedText hused hfaults (ofDefinition_arguments p).symm hrest

/-- The text that is put on the line of a definition without one. -/
theorem exists_bodyOf_one {ls : List Lexeme} (h : Lexes [' ', '1', '\n'] ls) :
    ∃ l e, bodyOf false ls = some ([l], [e]) ∧ strip (textOf [l]) = ['1'] := by
  obtain ⟨l, ls', rfl, hl, hls'⟩ := @Lexes.exists_spells ls [' '] ['1'] ['1'] ['\n'] .integer h
    (.blank (.inl rfl) .nil) (List.cons_ne_nil _ _) rfl rfl
  obtain ⟨e, rfl, he, hf⟩ := hls'.of_behindTrivia (by decide +kernel) (by decide)
  refine ⟨l, e, bodyOf_eq_some_iff.mpr ⟨rfl, ⟨hl.faults, ?_, .inl ?_, trivial⟩, e, [], rfl, hf,
    .inl he⟩, ?_⟩
  · rw [hl.cls]
    nofun
  · rw [hl.sameLine]
    exact List.forall_mem_singleton.mpr rfl
  · rw [textOf_singleton, hl.trivia, hl.raw]
    rfl

/-- A definition without a text gets one on its line. -/
theorem text_ne_none_of_line {ls rest : List Lexeme} {p : Definition}
    (hlexes : Lexes (lineText (ofDefinition p).toPredefine.toList) ls)
    (hp : definitionOf ls = some (p, rest))
    (hname : isPlainName (ofDefinition p).identifier.toList = true)
    (hargs : ∀ a ∈ (ofDefinition p).arguments.map String.toList,
      isPlainName (behindTrivia a) = true ∧ '=' ∉ a) : (ofDefinition p).text ≠ none := by
  intro hnone
  have hequals := not_mem_headText hname fun a ha => (hargs a ha).2
  rw [toList_toPredefine, hnone, tailText, List.append_nil, lineText_of_not_mem hequals,
    headText_eq, List.append_assoc] at hlexes
  obtain ⟨_, _, _, _, _, _, hfixed, _⟩ := definitionOf_eq_some hp
  obtain ⟨l, formals, ls', -, -, hls', hread⟩ := exists_definitionOf hname
    (by rw [String.ofList_toList]; exact hfixed) (fun a ha => (hargs a ha).1) hlexes
  obtain ⟨one, e, hbody, hstrip⟩ := exists_bodyOf_one hls'
  obtain ⟨rfl, -⟩ := Prod.mk.inj (Option.some.inj (hp.symm.trans (hread _ _ hbody)))
  rcases ofDefinition_text ⟨l, formals, [one]⟩ with ⟨-, hnil⟩ | hsome
  · rw [hstrip] at hnil
    cases hnil
  · rw [hnone] at hsome
    cases hsome

/-- Only a definition that can be handed over survives. -/
theorem Survives.canPass {surroundings : Surroundings} {directory : List String} {d : Define}
    (h : Survives surroundings directory d) : CanPass d := by
  obtain ⟨ls, hlexes, hiff⟩ := survives_iff surroundings directory d
  obtain ⟨p, rest, hp, rfl⟩ := hiff.mp h
  have hname := isPlainName_of_line hlexes hp
  have hargs := plain_of_line hlexes hp hname
  exact ⟨hname, hargs, text_ne_none_of_line hlexes hp hname hargs⟩

/-- A definition that the preprocessor reads without a fault from a text survives on the line that
hands it over to the next file if and only if it can be handed over. -/
theorem survives_iff_canPass {reading again : Surroundings} {s : State} {text : List Char}
    {ls : List Lexeme} {macros : OrderedTable Macro} {d : Define} (hat : s.At ls macros)
    (hlexes : Lexes text ls) (hgives : Gives reading readDefine s d) (directory : List String) :
    Survives again directory d ↔ CanPass d := by
  refine ⟨Survives.canPass, fun h => ?_⟩
  obtain ⟨p, rest, hp, rfl⟩ := (gives_iff hat d).mp hgives
  exact h.survives hlexes hp again directory

/-- Surroundings without files. -/
def noFiles : Surroundings :=
  ⟨{ current := [], entries := [] }, []⟩

theorem survives_increment : Survives noFiles [] ⟨"INC", ["x"], some "x + 1"⟩ := by
  obtain ⟨ls, s, hlexes, hat, hgives⟩ := exists_lexes_behindWord noFiles OrderedTable.empty []
    "INC( x )  x + 1 // next\n".toList
  have hread : Gives noFiles readDefine s ⟨"INC", ["x"], some "x + 1"⟩ :=
    (hgives _).mp ⟨by decide +kernel, by decide +kernel⟩
  refine (survives_iff_canPass hat hlexes hread []).mpr ⟨by decide, fun a ha => ?_, nofun⟩
  obtain rfl : a = ['x'] := List.mem_singleton.mp ha
  rw [Verilog.Lexer.behindTrivia_of_none rfl]
  decide

/-- The equals sign of a default is a blank on the line, so that the definition is not read. -/
theorem not_survives_default :
    Gives noFiles readBehindWord
      (start OrderedTable.empty [] "\x60define W(x = 4) x\n".toList)
      ⟨"W", ["x = 4"], some "x"⟩ ∧ ¬Survives noFiles [] ⟨"W", ["x = 4"], some "x"⟩ := by
  exact ⟨⟨by decide +kernel, by decide +kernel⟩, fun h => absurd h.1 (by decide +kernel)⟩

end HdlLint.Define
