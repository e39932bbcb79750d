import HdlLint.Proofs.TokenStream.Definition

/-!
# The lexemes of a definition

What a definition is read from (`definitionOf_eq_some`): a name, perhaps formal arguments that are
separated by commas between parentheses (`ParenthesizedText`), and a text.
-/

namespace HdlLint.Verilog.TokenStream

/-- The lexemes of formal arguments, with the commas between them. -/
inductive FormalsText : List (Formal × List Lexeme) → List Lexeme → Prop
  | last {f : Formal × List Lexeme} (h : FormalText f.1 f.2) : FormalsText [f] f.2
  | cons {f : Formal × List Lexeme} {fs : List (Formal × List Lexeme)} {c : Lexeme}
      {used : List Lexeme} (h : FormalText f.1 f.2) (hc : c.isSymbol "," = true)
      (hfs : FormalsText fs used) : FormalsText (f :: fs) (f.2 ++ c :: used)

theorem FormalsText.ne_nil {fs : List (Formal × List Lexeme)} {used : List Lexeme}
    (h : FormalsText fs used) : fs ≠ [] := by
  cases h <;> exact List.cons_ne_nil _ _

theorem formalsOf_eq_some {ls rest : List Lexeme} {fs : List (Formal × List Lexeme)}
    (h : formalsOf ls = some (fs, rest)) :
    ∃ used, ls = used ++ rest ∧ FormalsText fs used ∧ ∀ l ∈ used, l.faults = [] := by
  induction hn : ls.length using Nat.strongRecOn generalizing ls fs with
  | ind n ih =>
    cases hp : formalOf ls with
    | none =>
      rw [formalsOf_none hp] at h
      cases h
    | some p =>
      obtain ⟨f, after⟩ := p
      obtain ⟨htext, rfl, hfaults⟩ := formalOf_eq_some hp
      cases after with
      | nil =>
        rw [formalsOf_nil hp] at h
        cases h
      | cons c after =>
        rw [formalsOf_cons hp] at h
        split at h
        · cases h
        · rename_i hc
          split at h
          · rename_i hcomma
            obtain ⟨q, hq, heq⟩ := Option.map_eq_some_iff.mp h
            obtain ⟨rfl, rfl⟩ := Prod.mk.inj heq
            have hlt : after.length < n := by
              rw [List.length_append, List.length_cons] at hn
              omega
            obtain ⟨used, rfl, hused, hfaults'⟩ := ih _ hlt hq rfl
            refine ⟨f.2 ++ c :: used, by simp only [List.append_assoc, List.cons_append],
              .cons htext hcomma hused, ?_⟩
            rw [List.forall_mem_append, List.forall_mem_cons]
            exact ⟨hfaults, Decidable.not_not.mp hc, hfaults'⟩
          · cases h
            exact ⟨f.2, rfl, .last htext, hfaults⟩

/-- The lexemes of formal arguments between parentheses, if there are any. -/
inductive ParenthesizedText : Option (List (Formal × List Lexeme)) → List Lexeme → Prop
  | none : ParenthesizedText none []
  | some {o c : Lexeme} {fs : List (Formal × List Lexeme)} {used : List Lexeme}
      (ho : o.isSymbol "(" = true) (htrivia : o.trivia = []) (hfs : FormalsText fs used)
      (hc : c.isSymbol ")" = true) : ParenthesizedText (some fs) (o :: (used ++ [c]))

theorem parenthesizedOf_eq_some {ls rest : List Lexeme}
    {formals : Option (List (Formal × List Lexeme))}
    (h : parenthesizedOf ls = some (formals, rest)) :
    ∃ used, ls = used ++ rest ∧ ParenthesizedText formals used ∧ ∀ l ∈ used, l.faults = [] := by
  cases ls with
  | nil => cases h
  | cons l ls =>
    rw [parenthesizedOf] at h
    split at h
    · cases h
    · rename_i hf
      split at h
      · rename_i hopen
        rw [Bool.and_eq_true, List.isEmpty_iff] at hopen
        split at h
        · rename_i fs e after hfs
          split at h
          · rename_i he
            cases h
            obtain ⟨used, rfl, hused, hfaults⟩ := formalsOf_eq_some hfs
            refine ⟨l :: (used ++ [e]), ?_, .some hopen.1 hopen.2 hused he.2, ?_⟩
            · simp only [List.cons_append, List.append_assoc, List.nil_append]
            · rw [List.forall_mem_cons, List.forall_mem_append, List.forall_mem_singleton]
              exact ⟨Decidable.not_not.mp hf, hfaults, he.1⟩
          · cases h
        · cases h
      · cases h
        exact ⟨[], rfl, .none, fun _ hl => absurd hl List.not_mem_nil⟩

theorem definitionOf_eq_some {ls rest : List Lexeme} {d : Definition}
    (h : definitionOf ls = some (d, rest)) :
    ∃ used after, ls = d.name :: (used ++ after) ∧ d.name.faults = [] ∧ isName d.name = true ∧
      d.name.onSameLine = true ∧ (directiveNames ++ fixedNames).contains d.name.value = false ∧
      ParenthesizedText d.formals used ∧ (∀ l ∈ used, l.faults = []) ∧
      bodyOf false after = some (d.body, rest) := by
  rw [definitionOf, Option.bind_eq_some_iff] at h
  obtain ⟨p, hp, h⟩ := h
  split at h
  · cases h
  · rename_i hfixed
    rw [definitionBehind, Option.bind_eq_some_iff] at h
    obtain ⟨q, hq, h⟩ := h
    obtain ⟨r, hr, heq⟩ := Option.map_eq_some_iff.mp h
    obtain ⟨rfl, rfl⟩ := Prod.mk.inj heq
    obtain ⟨used, hls, hused, hfaults⟩ := parenthesizedOf_eq_some hq
    cases ls with
    | nil => cases hp
    | cons l ls =>
      rw [nameOf] at hp
      split at hp
      · rename_i hl
        cases hp
        rw [Bool.and_eq_true] at hl
        exact ⟨used, q.2, congrArg _ hls, hl.1, hl.2.1, hl.2.2, Bool.eq_false_iff.mpr hfixed, hused,
          hfaults, hr⟩
      · cases hp

end HdlLint.Verilog.TokenStream
