import HdlLint.Proofs.TokenStream.Upcoming

/-!
# What a definition reads

The readers of a definition as functions of the lexemes that come next (`bodyOf`, `argumentOf`,
`formalOf`, `formalsOf`, `definitionOf`): none where a fault is met. Each reader follows its function,
and so does `readDefine` (`follows_readDefine`).
-/

namespace HdlLint.Verilog.TokenStream

variable {α : Type} {surroundings : Surroundings} {s : State} {ls : List Lexeme}
  {m : OrderedTable Macro}

/-- Whether a lexeme can be a name. -/
def isName (l : Lexeme) : Bool :=
  l.cls = .identifier || l.cls = .keyword

theorem isName_iff {l : Lexeme} :
    isName l = true ↔ l.cls = .identifier ∨ l.cls = .keyword := by
  rw [isName, Bool.or_eq_true, decide_eq_true_eq, decide_eq_true_eq]

theorem cls_ne_endOfFile_of_isName {l : Lexeme} (h : isName l = true) : l.cls ≠ .endOfFile := by
  intro hc
  rw [isName, hc] at h
  cases h

theorem cls_ne_endOfFile_of_isSymbol {l : Lexeme} {raw : String} (h : l.isSymbol raw = true) :
    l.cls ≠ .endOfFile := by
  intro hc
  rw [Lexeme.isSymbol, hc] at h
  cases h

theorem raw_of_isSymbol {l : Lexeme} {raw : String} (h : l.isSymbol raw = true) : l.raw = raw := by
  rw [Lexeme.isSymbol, Bool.and_eq_true, beq_iff_eq] at h
  exact h.2

theorem exists_of_at (h : s.At ls m) : ∃ l ls', ls = l :: ls' := by
  have := upcoming_ne_nil s
  rw [h.upcoming] at this
  exact List.exists_cons_of_ne_nil this

/-! ## The name -/

/-- The name of a directive, and the lexemes behind it. -/
def nameOf : List Lexeme → Option (Lexeme × List Lexeme)
  | [] => none
  | l :: ls => if l.faults = [] ∧ (isName l && l.onSameLine) = true then some (l, ls) else none

theorem grows_reportMissing (what : String) (a : α) : Grows surroundings (do
    report (.expected what) (← get).last
    return a) := by
  refine Grows.bind (x := get) (fun _ => Nat.le_refl _) fun s => ?_
  exact (grows_report _ s.last).bind fun _ => .pure a

theorem follows_reportMissing (surroundings : Surroundings) (s : State) (m : OrderedTable Macro)
    (what : String) (a : α) :
    Follows surroundings s (do
      report (.expected what) (← get).last
      return a) m none := by
  show s.faults.size < (s.faults.push _).size
  rw [Array.size_push]
  exact Nat.lt_succ_self _

theorem follows_takeName (surroundings : Surroundings) (h : s.At ls m) :
    Follows surroundings s takeName m ((nameOf ls).map fun p => (some p.1, p.2)) := by
  obtain ⟨l, ls, rfl⟩ := exists_of_at h
  rw [nameOf]
  refine follows_peek_bind h
    (fun _ => .ite (grows_consume.bind fun _ => .pure _) (grows_reportMissing _ _))
    (fun hf => by rw [if_neg fun h => hf h.1]; rfl) fun hf s' h' => ?_
  change Follows surroundings s' (if (isName l && l.onSameLine) = true then _ else _) m _
  by_cases hn : (isName l && l.onSameLine) = true
  · rw [if_pos hn, if_pos ⟨hf, hn⟩]
    rw [Bool.and_eq_true] at hn
    exact (follows_consume surroundings h' (cls_ne_endOfFile_of_isName hn.1) hf).map some
  · rw [if_neg hn, if_neg fun h => hn h.2]
    exact follows_reportMissing surroundings s' m _ _

/-! ## The text -/

/-- The text of a definition, and the lexemes behind it. -/
def bodyOf : (continued : Bool) → List Lexeme → Option (List Lexeme × List Lexeme)
  | _, [] => none
  | continued, l :: ls =>
    if l.faults ≠ [] then none
    else if l.cls = .endOfFile || (!l.onSameLine && !continued) then some ([], l :: ls)
    else (bodyOf (l.cls = .lineContinuation) ls).map fun p => (l :: p.1, p.2)

theorem grows_takeBody (count : Nat) (continued : Bool) :
    Grows surroundings (takeBody count continued) := by
  induction count generalizing continued with
  | zero => exact .pure _
  | succ count ih =>
    exact grows_peek.bind fun _ => .ite (.pure _)
      (grows_consume.bind fun _ => (ih _).bind fun _ => .pure _)

theorem follows_takeBody (surroundings : Surroundings) {count : Nat} (continued : Bool)
    (h : s.At ls m) (hn : ls.length ≤ count) :
    Follows surroundings s (takeBody count continued) m (bodyOf continued ls) := by
  induction count generalizing s ls continued with
  | zero =>
    obtain ⟨l, ls, rfl⟩ := exists_of_at h
    cases hn
  | succ count ih =>
    obtain ⟨l, ls, rfl⟩ := exists_of_at h
    rw [bodyOf]
    refine follows_peek_bind h
      (fun _ => .ite (.pure _)
        (grows_consume.bind fun _ => (grows_takeBody _ _).bind fun _ => .pure _))
      (fun hf => if_pos hf) fun hf s' h' => ?_
    rw [if_neg (not_not_intro hf)]
    refine .ite (fun _ => .pure h' _) fun hstop => ?_
    have hc : l.cls ≠ .endOfFile := fun hc => hstop (by rw [hc]; rfl)
    refine (follows_consume surroundings h' hc hf).bind fun s'' h'' => ?_
    have hrest := ih (decide (l.cls = .lineContinuation)) h'' (Nat.le_of_succ_le_succ hn)
    exact hrest.map (l :: ·)

/-! ## Formal arguments -/

/-- The closing delimiters that are waited for behind a lexeme. -/
def closersBehind (closers : List String) (l : Lexeme) : List String :=
  let closers := match closers with
    | c :: outer => if l.isSymbol c then outer else closers
    | [] => closers
  match closer? l with
  | some c => c :: closers
  | none => closers

/-- The lexemes of an argument, and those behind it. -/
def argumentOf : (closers : List String) → List Lexeme → Option (List Lexeme × List Lexeme)
  | _, [] => none
  | closers, l :: ls =>
    if l.faults ≠ [] then none
    else if l.cls = .endOfFile || (closers = [] && (l.isSymbol "," || l.isSymbol ")")) then
      some ([], l :: ls)
    else (argumentOf (closersBehind closers l) ls).map fun p => (l :: p.1, p.2)

theorem grows_peekFrom (buffer : List Lexeme) : Grows surroundings (peekFrom buffer) := by
  cases buffer with
  | nil => exact grows_peek
  | cons l buffer => exact .pure _

theorem grows_takeFrom (buffer : List Lexeme) : Grows surroundings (takeFrom buffer) := by
  cases buffer with
  | nil => exact grows_consume.bind fun _ => .pure _
  | cons l buffer => exact Grows.bind (fun _ => Nat.le_refl _) fun _ => .pure _

theorem grows_takeArgument (count : Nat) (closers : List String) (buffer : List Lexeme) :
    Grows surroundings (takeArgument count closers buffer) := by
  induction count generalizing closers buffer with
  | zero => exact .pure _
  | succ count ih =>
    exact (grows_peekFrom _).bind fun _ => .ite (.pure _)
      ((grows_takeFrom _).bind fun _ => (ih _ _).bind fun _ => .pure _)

theorem follows_takeArgument (surroundings : Surroundings) {count : Nat} (closers : List String)
    (h : s.At ls m) (hn : ls.length ≤ count) :
    Follows surroundings s (takeArgument count closers []) m
      ((argumentOf closers ls).map fun p => ((p.1, []), p.2)) := by
  induction count generalizing s ls closers with
  | zero =>
    obtain ⟨l, ls, rfl⟩ := exists_of_at h
    cases hn
  | succ count ih =>
    obtain ⟨l, ls, rfl⟩ := exists_of_at h
    rw [argumentOf]
    refine follows_peek_bind h
      (fun _ => .ite (.pure _)
        ((grows_takeFrom _).bind fun _ => (grows_takeArgument _ _ _).bind fun _ => .pure _))
      (fun hf => by rw [if_pos hf]; rfl) fun hf s' h' => ?_
    rw [if_neg (not_not_intro hf)]
    by_cases hstop : (l.cls = .endOfFile ||
        (closers = [] && (l.isSymbol "," || l.isSymbol ")"))) = true
    · rw [if_pos hstop, if_pos hstop]
      exact .pure h' _
    · rw [if_neg hstop, if_neg hstop]
      have hc : l.cls ≠ .endOfFile := fun hc => hstop (by rw [hc]; rfl)
      have hconsume := (follows_consume surroundings h' hc hf).map fun l => (l, ([] : List Lexeme))
      refine hconsume.bind fun s'' h'' => ?_
      have hrest := ih (closersBehind closers l) h'' (Nat.le_of_succ_le_succ hn)
      have htaken := hrest.map fun p => (l :: p.1, p.2)
      rw [Option.map_map] at htaken ⊢
      exact htaken

/-- A formal argument with its lexemes, and the lexemes behind it. -/
def formalOf : List Lexeme → Option ((Formal × List Lexeme) × List Lexeme)
  | l :: e :: ls =>
    if l.faults = [] ∧ isName l = true ∧ e.faults = [] then
      if e.isSymbol "=" then
        (argumentOf [] ls).map fun p => ((⟨l.value, some p.1⟩, l :: e :: p.1), p.2)
      else some ((⟨l.value, none⟩, [l]), e :: ls)
    else none
  | _ => none

/-- Takes the default of a formal argument whose name was taken. -/
def takeDefault (name : Lexeme) : Preprocessor (Option (Formal × List Lexeme)) := do
  if (← peek).isSymbol "=" then
    let equals ← consume
    let (default, _) ← takeArgument (← remaining) [] []
    return some (⟨name.value, some default⟩, name :: equals :: default)
  else
    return some (⟨name.value, none⟩, [name])

theorem takeFormal_eq : takeFormal = (do
    let l ← peek
    if l.cls ≠ .identifier && l.cls ≠ .keyword then
      report (.expected "identifier") (← get).last
      return none
    let name ← consume
    takeDefault name) := rfl

theorem grows_takeDefault (name : Lexeme) : Grows surroundings (takeDefault name) :=
  grows_peek.bind fun _ => .ite
    (grows_consume.bind fun _ => grows_remaining.bind fun _ =>
      (grows_takeArgument _ _ _).bind fun _ => .pure _) (.pure _)

theorem grows_takeFormal : Grows surroundings takeFormal := by
  rw [takeFormal_eq]
  exact grows_peek.bind fun _ => .ite (grows_reportMissing _ _)
    (grows_consume.bind fun _ => grows_takeDefault _)

theorem follows_takeDefault (surroundings : Surroundings) (name : Lexeme) {e : Lexeme}
    (h : s.At (e :: ls) m) :
    Follows surroundings s (takeDefault name) m
      (if e.faults = [] then
        if e.isSymbol "=" then
          (argumentOf [] ls).map fun p =>
            (some (⟨name.value, some p.1⟩, name :: e :: p.1), p.2)
        else some (some (⟨name.value, none⟩, [name]), e :: ls)
      else none) := by
  refine follows_peek_bind h
    (fun _ => .ite
      (grows_consume.bind fun _ => grows_remaining.bind fun _ =>
        (grows_takeArgument _ _ _).bind fun _ => .pure _) (.pure _))
    (fun hf => if_neg hf) fun hf s' h' => ?_
  rw [if_pos hf]
  refine .ite (fun he => ?_) fun _ => .pure h' _
  refine (follows_consume surroundings h' (cls_ne_endOfFile_of_isSymbol he) hf).bind
    fun s₂ h₂ => ?_
  obtain ⟨n, hn, hremaining⟩ := follows_remaining surroundings h₂
  refine hremaining.bind fun s₃ h₃ => ?_
  have hdefault := (follows_takeArgument surroundings [] h₃ hn).map fun p =>
    some ((⟨name.value, some p.1⟩ : Formal), name :: e :: p.1)
  rw [Option.map_map] at hdefault
  exact hdefault

theorem not_isName_iff (l : Lexeme) :
    (l.cls ≠ .identifier && l.cls ≠ .keyword) = !isName l := by
  rw [isName, Bool.not_or, decide_not, decide_not]

theorem formalOf_none {l : Lexeme} (h : l.faults ≠ [] ∨ isName l = false) :
    formalOf (l :: ls) = none := by
  cases ls with
  | nil => rfl
  | cons e ls =>
    rw [formalOf, if_neg]
    rintro ⟨hf, hn, -⟩
    rcases h with h | h
    · exact h hf
    · rw [hn] at h
      cases h

theorem follows_takeFormal (surroundings : Surroundings) (h : s.At ls m) :
    Follows surroundings s takeFormal m ((formalOf ls).map fun p => (some p.1, p.2)) := by
  obtain ⟨l, ls, rfl⟩ := exists_of_at h
  rw [takeFormal_eq]
  refine follows_peek_bind h
    (fun _ => .ite (grows_reportMissing _ _) (grows_consume.bind fun _ => grows_takeDefault _))
    (fun hf => by rw [formalOf_none (.inl hf)]; rfl) fun hf s' h' => ?_
  rw [not_isName_iff]
  cases hn : isName l with
  | false =>
    rw [formalOf_none (.inr hn)]
    exact follows_reportMissing surroundings s' m _ _
  | true =>
    refine (follows_consume surroundings h' (cls_ne_endOfFile_of_isName hn) hf).bind
      fun s₂ h₂ => ?_
    obtain ⟨e, ls, rfl⟩ := exists_of_at h₂
    have hdefault := follows_takeDefault surroundings l h₂
    rw [formalOf]
    by_cases he : e.faults = []
    · rw [if_pos he] at hdefault
      rw [if_pos ⟨hf, hn, he⟩]
      by_cases hequals : e.isSymbol "=" = true
      · rw [if_pos hequals] at hdefault ⊢
        rw [Option.map_map]
        exact hdefault
      · rw [if_neg hequals] at hdefault ⊢
        exact hdefault
    · rw [if_neg he] at hdefault
      rw [if_neg fun h => he h.2.2]
      exact hdefault

/-! ## Lists of formal arguments -/

theorem argumentOf_append {closers : List String} {d rest : List Lexeme}
    (h : argumentOf closers ls = some (d, rest)) :
    ls = d ++ rest ∧ ∀ l ∈ d, l.faults = [] := by
  induction ls generalizing closers d with
  | nil => cases h
  | cons l ls ih =>
    rw [argumentOf] at h
    split at h
    · cases h
    · rename_i hf
      split at h
      · cases h
        exact ⟨rfl, nofun⟩
      · obtain ⟨p, hp, heq⟩ := Option.map_eq_some_iff.mp h
        obtain ⟨rfl, rfl⟩ := Prod.mk.inj heq
        obtain ⟨rfl, hfaults⟩ := ih hp
        exact ⟨rfl, List.forall_mem_cons.mpr ⟨Decidable.not_not.mp hf, hfaults⟩⟩

/-- The lexemes of a formal argument: its name, and an equals sign before its default. -/
inductive FormalText : Formal → List Lexeme → Prop
  | plain {l : Lexeme} (hl : isName l = true) : FormalText ⟨l.value, none⟩ [l]
  | default {l e : Lexeme} {d : List Lexeme} (hl : isName l = true) (he : e.isSymbol "=" = true) :
      FormalText ⟨l.value, some d⟩ (l :: e :: d)

theorem formalOf_eq_some {p : Formal × List Lexeme} {rest : List Lexeme}
    (h : formalOf ls = some (p, rest)) :
    FormalText p.1 p.2 ∧ ls = p.2 ++ rest ∧ ∀ l ∈ p.2, l.faults = [] := by
  match ls with
  | [] => cases h
  | [l] => cases h
  | l :: e :: ls =>
    rw [formalOf] at h
    split at h
    · rename_i hl
      split at h
      · rename_i he
        obtain ⟨q, hq, heq⟩ := Option.map_eq_some_iff.mp h
        obtain ⟨rfl, rfl⟩ := Prod.mk.inj heq
        obtain ⟨rfl, hfaults⟩ := argumentOf_append hq
        exact ⟨.default hl.2.1 he, rfl,
          List.forall_mem_cons.mpr ⟨hl.1, List.forall_mem_cons.mpr ⟨hl.2.2, hfaults⟩⟩⟩
      · cases h
        exact ⟨.plain hl.2.1, rfl, List.forall_mem_cons.mpr ⟨hl.1, nofun⟩⟩
    · cases h

/-- A formal argument starts with its name. -/
theorem FormalText.exists_cons {f : Formal} {ls : List Lexeme} (h : FormalText f ls) :
    ∃ l more, ls = l :: more ∧ isName l = true := by
  cases h with
  | plain hl => exact ⟨_, _, rfl, hl⟩
  | default hl => exact ⟨_, _, rfl, hl⟩

/-- Formal arguments with their lexemes, and the lexemes behind them. -/
def formalsOf (ls : List Lexeme) : Option (List (Formal × List Lexeme) × List Lexeme) :=
  match h : formalOf ls with
  | some (formal, l :: rest) =>
    have : rest.length < ls.length := by
      obtain ⟨-, rfl, -⟩ := formalOf_eq_some h
      rw [List.length_append, List.length_cons]
      omega
    if l.faults ≠ [] then none
    else if l.isSymbol "," then (formalsOf rest).map fun p => (formal :: p.1, p.2)
    else some ([formal], l :: rest)
  | some (_, []) => none
  | none => none
termination_by ls.length
decreasing_by assumption

theorem formalsOf_none (h : formalOf ls = none) : formalsOf ls = none := by
  rw [formalsOf]
  split
  · rename_i h'
    rw [h] at h'
    cases h'
  · rfl
  · rfl

theorem formalsOf_nil {formal : Formal × List Lexeme} (h : formalOf ls = some (formal, [])) :
    formalsOf ls = none := by
  rw [formalsOf]
  split
  · rename_i h'
    rw [h] at h'
    cases h'
  · rfl
  · rfl

theorem formalsOf_cons {formal : Formal × List Lexeme} {l : Lexeme} {rest : List Lexeme}
    (h : formalOf ls = some (formal, l :: rest)) :
    formalsOf ls =
      if l.faults ≠ [] then none
      else if l.isSymbol "," then (formalsOf rest).map fun p => (formal :: p.1, p.2)
      else some ([formal], l :: rest) := by
  rw [formalsOf]
  split
  · rename_i h'
    rw [h] at h'
    cases h'
    rfl
  · rename_i h'
    rw [h] at h'
    cases h'
  · rename_i h'
    rw [h] at h'
    cases h'

/-- Takes the formal arguments behind one that was taken, if one was. -/
def takeFormalsBehind (count : Nat) :
    Option (Formal × List Lexeme) → Preprocessor (List (Formal × List Lexeme))
  | none => return []
  | some formal => do
    if (← peek).isSymbol "," then
      let _ ← consume
      return formal :: (← takeFormals count)
    else
      return [formal]

theorem grows_takeFormalsBehind {count : Nat} (h : Grows surroundings (takeFormals count))
    (formal : Option (Formal × List Lexeme)) :
    Grows surroundings (takeFormalsBehind count formal) := by
  cases formal with
  | none => exact .pure _
  | some formal =>
    exact grows_peek.bind fun _ => .ite
      (grows_consume.bind fun _ => h.bind fun _ => .pure _) (.pure _)

theorem grows_takeFormals (count : Nat) : Grows surroundings (takeFormals count) := by
  induction count with
  | zero => exact .pure _
  | succ count ih => exact grows_takeFormal.bind (grows_takeFormalsBehind ih)

theorem follows_takeFormals (surroundings : Surroundings) {count : Nat} (h : s.At ls m)
    (hn : ls.length ≤ count) :
    Follows surroundings s (takeFormals count) m (formalsOf ls) := by
  induction count generalizing s ls with
  | zero =>
    obtain ⟨l, ls, rfl⟩ := exists_of_at h
    cases hn
  | succ count ih =>
    have hformal := follows_takeFormal surroundings h
    cases hp : formalOf ls with
    | none =>
      rw [hp] at hformal
      rw [formalsOf_none hp]
      exact hformal.bind_none (grows_takeFormalsBehind (grows_takeFormals count))
    | some p =>
      obtain ⟨formal, rest⟩ := p
      rw [hp] at hformal
      refine Follows.bind hformal fun s₁ h₁ => ?_
      obtain ⟨l, rest, rfl⟩ := exists_of_at h₁
      rw [formalsOf_cons hp]
      refine follows_peek_bind h₁
        (fun _ => .ite
          (grows_consume.bind fun _ => (grows_takeFormals count).bind fun _ => .pure _) (.pure _))
        (fun hf => if_pos hf) fun hf s₂ h₂ => ?_
      rw [if_neg (not_not_intro hf)]
      refine .ite (fun hcomma => ?_) fun _ => .pure h₂ _
      refine (follows_consume surroundings h₂ (cls_ne_endOfFile_of_isSymbol hcomma) hf).bind
        fun s₃ h₃ => ?_
      obtain ⟨-, rfl, -⟩ := formalOf_eq_some hp
      rw [List.length_append, List.length_cons] at hn
      have hrest := ih h₃ (by omega)
      exact hrest.map (formal :: ·)

/-! ## Definitions -/

/-- Takes formal arguments between parentheses, if there are any. -/
def takeParenthesized : Preprocessor (Option (List (Formal × List Lexeme))) := do
  let l ← peek
  if l.isSymbol "(" && l.trivia.isEmpty then do
    let _ ← consume
    let formals ← takeFormals (← remaining)
    if (← peek).isSymbol ")" then
      let _ ← consume
    else
      report (.expected "')'") (← get).last
    pure (some formals)
  else pure none

/-- The parts of a definition. -/
structure Definition where
  name : Lexeme
  formals : Option (List (Formal × List Lexeme))
  body : List Lexeme

/-- The directive that a definition is. -/
def Definition.directive (d : Definition) : Directive :=
  .define d.name.value
    ((d.formals.getD []).map fun f => String.ofList (f.2.flatMap sourceText))
    (d.body.map bodyToken)

/-- The macro that a definition makes. -/
def Definition.toMacro (d : Definition) : Macro :=
  ⟨d.name.value, d.formals.map fun fs => fs.map (·.1), d.body⟩

/-- Takes what a definition has behind its name. -/
def takeDefinition (name : Lexeme) : Preprocessor Directive := do
  let formals ← takeParenthesized
  let body ← takeBody (← remaining) false
  modify fun s => { s with
    macros := s.macros.insert name.value (Definition.mk name formals body).toMacro }
  return (Definition.mk name formals body).directive

theorem readDefine_eq : readDefine = (do
    match ← takeName with
    | none =>
      let body ← takeBody (← remaining) false
      return .define "" [] (body.map bodyToken)
    | some name =>
      if (directiveNames ++ fixedNames).contains name.value then
        report (.unexpected "macro name") name.start
      takeDefinition name) := by
  have hrest : ∀ name : Lexeme, takeDefinition name = (do
      let l ← peek
      let formals ←
        if l.isSymbol "(" && l.trivia.isEmpty then do
          let _ ← consume
          let formals ← takeFormals (← remaining)
          if (← peek).isSymbol ")" then
            let _ ← consume
          else
            report (.expected "')'") (← get).last
          pure (some formals)
        else pure none
      let body ← takeBody (← remaining) false
      modify fun s => { s with
        macros := s.macros.insert name.value
          ⟨name.value, formals.map fun fs => fs.map (·.1), body⟩ }
      return .define name.value
        ((formals.getD []).map fun f => String.ofList (f.2.flatMap sourceText))
        (body.map bodyToken)) := by
    intro name
    rw [takeDefinition, takeParenthesized, bind_assoc]
    refine congrArg (peek >>= ·) (funext fun l => ?_)
    split
    · simp only [bind_assoc]
      refine congrArg (consume >>= ·) (funext fun _ => ?_)
      refine congrArg (remaining >>= ·) (funext fun n => ?_)
      refine congrArg (takeFormals n >>= ·) (funext fun fs => ?_)
      refine congrArg (peek >>= ·) (funext fun e => ?_)
      split <;> simp only [bind_assoc, pure_bind] <;> rfl
    · rw [pure_bind]
      rfl
  simp only [hrest]
  rfl

/-- Formal arguments between parentheses, if there are any, and the lexemes behind them. -/
def parenthesizedOf : List Lexeme → Option (Option (List (Formal × List Lexeme)) × List Lexeme)
  | [] => none
  | l :: ls =>
    if l.faults ≠ [] then none
    else if l.isSymbol "(" && l.trivia.isEmpty then
      match formalsOf ls with
      | some (fs, e :: rest) =>
        if e.faults = [] ∧ e.isSymbol ")" = true then some (some fs, rest) else none
      | _ => none
    else some (none, l :: ls)

/-- A definition with the given name, and the lexemes behind it. -/
def definitionBehind (name : Lexeme) (ls : List Lexeme) : Option (Definition × List Lexeme) :=
  (parenthesizedOf ls).bind fun p =>
    (bodyOf false p.2).map fun q => (⟨name, p.1, q.1⟩, q.2)

/-- A definition, and the lexemes behind it. -/
def definitionOf (ls : List Lexeme) : Option (Definition × List Lexeme) :=
  (nameOf ls).bind fun p =>
    if (directiveNames ++ fixedNames).contains p.1.value then none else definitionBehind p.1 p.2

/-- Takes the parenthesis that closes formal arguments. -/
def takeClosing (formals : List (Formal × List Lexeme)) :
    Preprocessor (Option (List (Formal × List Lexeme))) := do
  if (← peek).isSymbol ")" then
    let _ ← consume
  else
    report (.expected "')'") (← get).last
  pure (some formals)

theorem grows_takeClosing (formals : List (Formal × List Lexeme)) :
    Grows surroundings (takeClosing formals) :=
  grows_peek.bind fun _ => .ite (grows_consume.bind fun _ => .pure _)
    (grows_reportMissing _ (some formals))

theorem follows_takeClosing (surroundings : Surroundings) (formals : List (Formal × List Lexeme))
    {e : Lexeme} (h : s.At (e :: ls) m) :
    Follows surroundings s (takeClosing formals) m
      (if e.faults = [] ∧ e.isSymbol ")" = true then some (some formals, ls) else none) := by
  refine follows_peek_bind h
    (fun _ => .ite (grows_consume.bind fun _ => .pure _)
      (grows_reportMissing _ (some formals)))
    (fun hf => if_neg fun hclose => hf hclose.1) fun hf s' h' => ?_
  by_cases hclose : e.isSymbol ")" = true
  · rw [if_pos hclose, if_pos ⟨hf, hclose⟩]
    have hconsume := follows_consume surroundings h' (cls_ne_endOfFile_of_isSymbol hclose) hf
    exact hconsume.bind fun s'' h'' => .pure h'' _
  · rw [if_neg hclose, if_neg fun h => hclose h.2]
    exact follows_reportMissing surroundings s' m _ (some formals)

theorem grows_takeParenthesized : Grows surroundings takeParenthesized :=
  grows_peek.bind fun _ => .ite
    (grows_consume.bind fun _ => grows_remaining.bind fun _ =>
      (grows_takeFormals _).bind fun _ => grows_takeClosing _) (.pure _)

theorem follows_takeParenthesized (surroundings : Surroundings) (h : s.At ls m) :
    Follows surroundings s takeParenthesized m (parenthesizedOf ls) := by
  obtain ⟨l, ls, rfl⟩ := exists_of_at h
  rw [parenthesizedOf]
  refine follows_peek_bind h
    (fun _ => .ite
      (grows_consume.bind fun _ => grows_remaining.bind fun _ =>
        (grows_takeFormals _).bind fun _ => grows_takeClosing _) (.pure _))
    (fun hf => if_pos hf) fun hf s₁ h₁ => ?_
  rw [if_neg (not_not_intro hf)]
  refine .ite (fun hopen => ?_) fun _ => .pure h₁ _
  rw [Bool.and_eq_true] at hopen
  refine (follows_consume surroundings h₁ (cls_ne_endOfFile_of_isSymbol hopen.1) hf).bind
    fun s₂ h₂ => ?_
  obtain ⟨n, hn, hremaining⟩ := follows_remaining surroundings h₂
  refine hremaining.bind fun s₃ h₃ => ?_
  have hformals := follows_takeFormals surroundings h₃ hn
  cases hfs : formalsOf ls with
  | none =>
    rw [hfs] at hformals
    exact hformals.bind_none fun fs => grows_takeClosing fs
  | some p =>
    obtain ⟨fs, rest⟩ := p
    rw [hfs] at hformals
    refine hformals.bind fun s₄ h₄ => ?_
    obtain ⟨e, rest, rfl⟩ := exists_of_at h₄
    exact follows_takeClosing surroundings fs h₄

theorem grows_takeDefinition (name : Lexeme) : Grows surroundings (takeDefinition name) :=
  grows_takeParenthesized.bind fun _ => grows_remaining.bind fun _ =>
    (grows_takeBody _ _).bind fun _ => Grows.bind (fun _ => Nat.le_refl _) fun _ => .pure _

/-- The macros behind a definition. -/
def Definition.addTo (m : OrderedTable Macro) (d : Definition) : OrderedTable Macro :=
  m.insert d.name.value d.toMacro

/-- What a step that reads a definition does: it meets a fault, or it adds a macro. -/
def FollowsDefinition (surroundings : Surroundings) (s : State) (x : Preprocessor Directive)
    (m : OrderedTable Macro) : Option (Definition × List Lexeme) → Prop
  | none => Follows surroundings s x m none
  | some (d, rest) => Follows surroundings s x (d.addTo m) (some (d.directive, rest))

theorem Follows.bind_definition {s : State} {x : Preprocessor α} {f : α → Preprocessor Directive}
    {a : α} {d : Option (Definition × List Lexeme)} (hx : Follows surroundings s x m (some (a, ls)))
    (hf : ∀ s', s'.At ls m → FollowsDefinition surroundings s' (f a) m d) :
    FollowsDefinition surroundings s (x >>= f) m d := by
  cases d with
  | none =>
    have hf : ∀ s', s'.At ls m → Follows surroundings s' (f a) m none := hf
    exact hx.bind hf
  | some p =>
    have hf : ∀ s', s'.At ls m →
      Follows surroundings s' (f a) (p.1.addTo m) (some (p.1.directive, p.2)) := hf
    exact hx.bind hf

theorem follows_takeDefinition (surroundings : Surroundings) (name : Lexeme) (h : s.At ls m) :
    FollowsDefinition surroundings s (takeDefinition name) m (definitionBehind name ls) := by
  have hformals := follows_takeParenthesized surroundings h
  rw [definitionBehind]
  cases hp : parenthesizedOf ls with
  | none =>
    rw [hp] at hformals
    exact @Follows.bind_none _ _ _ _ _ _ m m hformals fun _ => grows_remaining.bind fun _ =>
      (grows_takeBody _ _).bind fun _ => Grows.bind (fun _ => Nat.le_refl _) fun _ => .pure _
  | some p =>
    obtain ⟨formals, rest⟩ := p
    rw [hp] at hformals
    rw [Option.bind_some]
    refine Follows.bind_definition hformals fun s₁ h₁ => ?_
    obtain ⟨n, hn, hremaining⟩ := follows_remaining surroundings h₁
    refine Follows.bind_definition hremaining fun s₂ h₂ => ?_
    have hbody := follows_takeBody surroundings false h₂ hn
    cases hb : bodyOf false rest with
    | none =>
      rw [hb] at hbody
      exact @Follows.bind_none _ _ _ _ _ _ m m hbody fun _ =>
        Grows.bind (fun _ => Nat.le_refl _) fun _ => .pure _
    | some q =>
      rw [hb] at hbody
      refine Follows.bind_definition hbody fun s₃ h₃ => ?_
      refine ⟨rfl, ⟨h₃.upcoming, h₃.calm, ?_⟩, rfl⟩
      rw [Definition.addTo, ← h₃.macros]
      rfl

/-- A definition is read as the lexemes that come next tell. -/
theorem follows_readDefine (surroundings : Surroundings) (h : s.At ls m) :
    FollowsDefinition surroundings s readDefine m (definitionOf ls) := by
  have hname := follows_takeName surroundings h
  rw [readDefine_eq, definitionOf]
  cases hp : nameOf ls with
  | none =>
    rw [hp] at hname
    refine @Follows.bind_none _ _ _ _ _ _ m m hname fun name => ?_
    cases name with
    | none => exact grows_remaining.bind fun _ => (grows_takeBody _ _).bind fun _ => .pure _
    | some name =>
      exact .ite ((grows_report _ _).bind fun _ => grows_takeDefinition name)
        (grows_takeDefinition name)
  | some p =>
    obtain ⟨name, rest⟩ := p
    rw [hp] at hname
    rw [Option.bind_some]
    refine Follows.bind_definition hname fun s₁ h₁ => ?_
    dsimp only
    split
    · exact @Follows.bind_none _ _ _ _ _ _ m m (follows_report surroundings s₁ m _ _) fun _ =>
        grows_takeDefinition name
    · exact follows_takeDefinition surroundings name h₁

end HdlLint.Verilog.TokenStream
