import HdlLint.Verilog.TokenStream.Definition

/-!
# The lexemes that come next

`State.upcoming` lists the lexemes that preprocessing meets when it opens no file and uses no macro,
up to the end of the outermost file. `Follows` tells what a step does with them: it meets a fault, or
it gives a value and leaves some of them. One lemma tells this for each way of reading a lexeme.
-/

namespace HdlLint.Verilog.TokenStream

variable {α β : Type} (surroundings : Surroundings)

/-! ## The lexemes of the files -/

/-- Puts trivia and faults in front of the first of some lexemes. -/
def attach (trivia : List Trivia) (faults : List Location) : List Lexeme → List Lexeme
  | [] => []
  | l :: ls => { l with trivia := trivia ++ l.trivia, faults := faults ++ l.faults } :: ls

theorem attach_nil (ls : List Lexeme) : attach [] [] ls = ls := by
  cases ls <;> rfl

theorem attach_attach (t t' : List Trivia) (f f' : List Location) (ls : List Lexeme) :
    attach t f (attach t' f' ls) = attach (t ++ t') (f ++ f') ls := by
  cases ls with
  | nil => rfl
  | cons l ls => simp only [attach, List.append_assoc]

/-- The lexemes of a file and of those around it. -/
def flowFrom (outermost : Bool) (outer : List Lexeme) : List Lexeme → List Lexeme
  | [] => outer
  | l :: ls =>
    if l.cls = .endOfFile then if outermost then [l] else attach l.trivia l.faults outer
    else l :: flowFrom outermost outer ls

/-- The lexemes of some files, the innermost included one first. -/
def flow : List Source → List Lexeme
  | [] => [Lexeme.none]
  | source :: outer => flowFrom outer.isEmpty (flow outer) source.lexemes

/-- The lexeme that is pulled is the first one, and the others stay. -/
theorem pull_flow (trivia : List Trivia) (faults : List Location) (sources : List Source) :
    ∃ ls, attach trivia faults (flow sources) = (pull trivia faults sources).1 :: ls ∧
      ((pull trivia faults sources).1.cls ≠ .endOfFile →
        ls = flow (pull trivia faults sources).2) ∧
      ((pull trivia faults sources).1.cls = .endOfFile → ls = []) := by
  fun_induction pull trivia faults sources with
  | case1 trivia faults =>
    refine ⟨[], ?_, fun h => absurd rfl h, fun _ => rfl⟩
    simp only [flow, attach, Lexeme.none, List.append_nil]
  | case2 trivia faults source outer h ih =>
    rw [flow, h, flowFrom]
    exact ih
  | case3 trivia faults source outer l rest h l' hc =>
    refine ⟨flowFrom outer.isEmpty (flow outer) rest, ?_, fun _ => rfl, fun h => absurd h hc⟩
    rw [flow, h, flowFrom, if_neg hc, attach]
  | case4 trivia faults source l rest h l' hc =>
    have hc : l.cls = .endOfFile := Decidable.not_not.mp hc
    refine ⟨[], ?_, fun h => absurd hc h, fun _ => rfl⟩
    rw [flow, h, flowFrom, if_pos hc]
    rfl
  | case5 trivia faults source l rest h l' hc source' outer ih =>
    have hc : l.cls = .endOfFile := Decidable.not_not.mp hc
    have hflow : flow (source :: source' :: outer) =
        attach l.trivia l.faults (flow (source' :: outer)) := by
      rw [flow, h, flowFrom, if_pos hc]
      rfl
    rw [hflow, attach_attach]
    exact ih

/-- Lexemes up to the end of a file. -/
def throughEnd : List Lexeme → List Lexeme
  | [] => []
  | l :: ls => if l.cls = .endOfFile then [l] else l :: throughEnd ls

/-- The lexemes that come next, the last of which is the end of the outermost file. -/
def State.upcoming (s : State) : List Lexeme :=
  throughEnd (s.waiting ++ flow s.sources)

/-- A state in which no fault of a waiting lexeme is left to be reported. -/
def Calm (s : State) : Prop :=
  ∀ l ∈ s.waiting, l.faults = []

theorem length_throughEnd_le (ls : List Lexeme) : (throughEnd ls).length ≤ ls.length := by
  induction ls with
  | nil => exact Nat.le_refl 0
  | cons l ls ih =>
    rw [throughEnd]
    split
    · exact Nat.succ_le_succ (Nat.zero_le _)
    · exact Nat.succ_le_succ ih

theorem flow_ne_nil (sources : List Source) : flow sources ≠ [] := by
  obtain ⟨ls, h, -⟩ := pull_flow [] [] sources
  rw [attach_nil] at h
  rw [h]
  exact List.cons_ne_nil _ _

/-! ## Steps -/

theorem run_bind (x : Preprocessor α) (f : α → Preprocessor β) (s : State) :
    ((x >>= f).run surroundings).run s =
      ((f ((x.run surroundings).run s).1).run surroundings).run
        ((x.run surroundings).run s).2 := rfl

/-- A step that takes no fault back. -/
def Grows (x : Preprocessor α) : Prop :=
  ∀ s, s.faults.size ≤ ((x.run surroundings).run s).2.faults.size

/-- A state in which the given lexemes come next, under the given macros. -/
structure State.At (s : State) (ls : List Lexeme) (macros : OrderedTable Macro) : Prop where
  upcoming : s.upcoming = ls
  calm : Calm s
  macros : s.macros = macros

/-- A state that goes on with the given lexemes and macros, without a fault more. -/
structure Leaves (s s' : State) (ls : List Lexeme) (macros : OrderedTable Macro) : Prop
    extends s'.At ls macros where
  faults : s'.faults = s.faults

/-- What a step does: it meets a fault, or it gives a value and leaves lexemes and macros. -/
def Follows (s : State) (x : Preprocessor α) (macros : OrderedTable Macro) :
    Option (α × List Lexeme) → Prop
  | none => s.faults.size < ((x.run surroundings).run s).2.faults.size
  | some (a, ls) =>
    ((x.run surroundings).run s).1 = a ∧ Leaves s ((x.run surroundings).run s).2 ls macros

variable {surroundings}

theorem Grows.pure (a : α) : Grows surroundings (pure a : Preprocessor α) :=
  fun _ => Nat.le_refl _

theorem Grows.bind {x : Preprocessor α} {f : α → Preprocessor β} (hx : Grows surroundings x)
    (hf : ∀ a, Grows surroundings (f a)) : Grows surroundings (x >>= f) :=
  fun s => Nat.le_trans (hx s) (hf _ _)

theorem Grows.ite {c : Prop} [Decidable c] {x y : Preprocessor α} (hx : Grows surroundings x)
    (hy : Grows surroundings y) : Grows surroundings (if c then x else y) := by
  split
  · exact hx
  · exact hy

theorem Follows.pure {s : State} {ls : List Lexeme} {m : OrderedTable Macro} (h : s.At ls m)
    (a : α) : Follows surroundings s (pure a) m (some (a, ls)) :=
  ⟨rfl, h, rfl⟩

theorem Follows.bind {s : State} {x : Preprocessor α} {f : α → Preprocessor β} {a : α}
    {ls : List Lexeme} {m m' : OrderedTable Macro} {r : Option (β × List Lexeme)}
    (hx : Follows surroundings s x m (some (a, ls)))
    (hf : ∀ s', s'.At ls m → Follows surroundings s' (f a) m' r) :
    Follows surroundings s (x >>= f) m' r := by
  obtain ⟨rfl, hat, hfaults⟩ := hx
  have h := hf _ hat
  cases r with
  | none =>
    rw [Follows, hfaults] at h
    exact h
  | some b => exact ⟨h.1, h.2.toAt, h.2.faults.trans hfaults⟩

theorem Follows.bind_none {s : State} {x : Preprocessor α} {f : α → Preprocessor β}
    {m m' : OrderedTable Macro} (hx : Follows surroundings s x m none)
    (hf : ∀ a, Grows surroundings (f a)) : Follows surroundings s (x >>= f) m' none :=
  Nat.lt_of_lt_of_le hx (hf _ _)

theorem Follows.map {s : State} {x : Preprocessor α} {m : OrderedTable Macro}
    {r : Option (α × List Lexeme)} (hx : Follows surroundings s x m r) (f : α → β) :
    Follows surroundings s (x >>= fun a => Pure.pure (f a)) m (r.map fun p => (f p.1, p.2)) := by
  cases r with
  | none => exact hx.bind_none fun a => .pure (f a)
  | some p => exact hx.bind fun _ h => .pure h (f p.1)

theorem Follows.ite {c : Prop} [Decidable c] {s : State} {x y : Preprocessor α}
    {m : OrderedTable Macro} {r r' : Option (α × List Lexeme)}
    (hx : c → Follows surroundings s x m r) (hy : ¬c → Follows surroundings s y m r') :
    Follows surroundings s (if c then x else y) m (if c then r else r') := by
  by_cases hc : c
  · rw [if_pos hc, if_pos hc]
    exact hx hc
  · rw [if_neg hc, if_neg hc]
    exact hy hc

/-! ## Reading a lexeme -/

theorem run_reports (places : List Location) (s : State) :
    ((forIn places PUnit.unit fun place _ => do
      report .badText place
      pure (ForInStep.yield PUnit.unit) : Preprocessor PUnit).run surroundings).run s =
      (PUnit.unit, { s with faults := s.faults ++
        (places.map fun place => (s.output.size, SourceFault.mk .badText place)).toArray }) := by
  induction places generalizing s with
  | nil =>
    rw [List.forIn_nil, List.map_nil, Array.append_empty]
    rfl
  | cons place places ih =>
    rw [List.forIn_cons, run_bind]
    show ((forIn places PUnit.unit _ : Preprocessor PUnit).run surroundings).run
      { s with faults := s.faults.push (s.output.size, ⟨.badText, place⟩) } = _
    rw [ih]
    simp only [List.map_cons, List.push_append_toArray]

theorem run_next_waiting {s : State} {l : Lexeme} {ls : List Lexeme} (hw : s.waiting = l :: ls) :
    (next.run surroundings).run s = (l, { s with waiting := ls }) := by
  obtain ⟨waiting⟩ := s
  obtain rfl : waiting = l :: ls := hw
  rfl

theorem run_next_pull {s : State} (hw : s.waiting = []) :
    (next.run surroundings).run s =
      ({ (pull [] [] s.sources).1 with faults := [] },
        { s with
          sources := (pull [] [] s.sources).2
          faults := s.faults ++ ((pull [] [] s.sources).1.faults.map fun place =>
            (s.output.size, SourceFault.mk .badText place)).toArray }) := by
  have hreports := @run_reports surroundings (pull [] [] s.sources).1.faults
    { s with sources := (pull [] [] s.sources).2 }
  obtain ⟨waiting⟩ := s
  obtain rfl : waiting = [] := hw
  exact congrArg (fun r => (_, r.2)) hreports

/-- What is known of the state behind the first of the lexemes that come next. -/
structure Read (s s' : State) (l : Lexeme) (ls : List Lexeme) : Prop where
  upcoming : l.cls ≠ .endOfFile → s'.upcoming = ls
  tail : l.cls = .endOfFile → ls = []
  calm : Calm s'
  macros : s'.macros = s.macros
  quiet : l.faults = [] → s'.faults = s.faults
  loud : l.faults ≠ [] → s.faults.size < s'.faults.size

theorem read_waiting {s : State} {l : Lexeme} {rest : List Lexeme} (h : Calm s)
    (hw : s.waiting = l :: rest) :
    ∃ ls, s.upcoming = l :: ls ∧ Read s { s with waiting := rest } l ls := by
  have hl : l.faults = [] := h l (by rw [hw]; exact List.mem_cons_self)
  have hcalm : Calm { s with waiting := rest } := fun l' hl' =>
    h l' (by rw [hw]; exact List.mem_cons_of_mem l hl')
  rw [State.upcoming, hw, List.cons_append, throughEnd]
  by_cases hc : l.cls = .endOfFile
  · rw [if_pos hc]
    exact ⟨[], rfl, fun hn => absurd hc hn, fun _ => rfl, hcalm, rfl, fun _ => rfl,
      fun hn => absurd hl hn⟩
  · rw [if_neg hc]
    exact ⟨_, rfl, fun _ => rfl, fun hn => absurd hn hc, hcalm, rfl, fun _ => rfl,
      fun hn => absurd hl hn⟩

theorem read_pull {s : State} (hw : s.waiting = []) :
    ∃ ls, s.upcoming = (pull [] [] s.sources).1 :: ls ∧
      Read s { s with
        sources := (pull [] [] s.sources).2
        faults := s.faults ++ ((pull [] [] s.sources).1.faults.map fun place =>
          (s.output.size, SourceFault.mk .badText place)).toArray } (pull [] [] s.sources).1 ls := by
  obtain ⟨ls, hflow, hrest, -⟩ := pull_flow [] [] s.sources
  rw [attach_nil] at hflow
  have hcalm : ∀ faults, Calm { s with sources := (pull [] [] s.sources).2, faults := faults } := by
    intro faults l hl
    rw [show s.waiting = [] from hw] at hl
    cases hl
  have hquiet : ∀ {fs : List Location}, fs = [] → s.faults ++ (fs.map fun place =>
      (s.output.size, SourceFault.mk .badText place)).toArray = s.faults := by
    rintro _ rfl
    rw [List.map_nil, Array.append_empty]
  have hloud : ∀ {fs : List Location}, fs ≠ [] → s.faults.size < (s.faults ++ (fs.map fun place =>
      (s.output.size, SourceFault.mk .badText place)).toArray).size := by
    intro fs hfs
    have := List.length_pos_iff.mpr hfs
    rw [Array.size_append]
    refine Nat.lt_add_of_pos_right ?_
    rw [List.size_toArray, List.length_map]
    exact this
  have hup : s.upcoming = throughEnd ((pull [] [] s.sources).1 :: ls) := by
    rw [State.upcoming, hw, List.nil_append, hflow]
  rw [throughEnd] at hup
  by_cases hc : (pull [] [] s.sources).1.cls = .endOfFile
  · rw [if_pos hc] at hup
    exact ⟨[], hup, fun hn => absurd hc hn, fun _ => rfl, hcalm _, rfl, hquiet, hloud⟩
  · rw [if_neg hc] at hup
    refine ⟨_, hup, fun _ => ?_, fun hn => absurd hn hc, hcalm _, rfl, hquiet, hloud⟩
    rw [State.upcoming, hrest hc]
    dsimp only
    rw [hw, List.nil_append]

theorem read_next {s : State} (h : Calm s) :
    ∃ l ls, s.upcoming = l :: ls ∧ ((next.run surroundings).run s).1 = { l with faults := [] } ∧
      Read s ((next.run surroundings).run s).2 l ls := by
  cases hw : s.waiting with
  | cons l rest =>
    obtain ⟨ls, hup, hread⟩ := read_waiting h hw
    have hl : l.faults = [] := h l (by rw [hw]; exact List.mem_cons_self)
    rw [run_next_waiting hw]
    exact ⟨l, ls, hup, by rw [← hl], hread⟩
  | nil =>
    obtain ⟨ls, hup, hread⟩ := read_pull hw
    rw [run_next_pull hw]
    exact ⟨_, ls, hup, rfl, hread⟩

theorem grows_next : Grows surroundings next := by
  intro s
  cases hw : s.waiting with
  | cons l rest =>
    exact Nat.le_of_eq (by rw [run_next_waiting hw])
  | nil =>
    rw [run_next_pull hw]
    dsimp only
    rw [Array.size_append]
    exact Nat.le_add_right _ _

theorem grows_report (cause : Cause) (place : Location) : Grows surroundings (report cause place) := by
  intro s
  show s.faults.size ≤ (s.faults.push _).size
  rw [Array.size_push]
  exact Nat.le_succ _

theorem grows_peek : Grows surroundings peek :=
  grows_next.bind fun l => Grows.bind (fun _ => Nat.le_refl _) fun _ => .pure l

theorem grows_consume : Grows surroundings consume :=
  grows_next.bind fun l => Grows.bind (fun _ => Nat.le_refl _) fun _ => .pure l

theorem follows_report (surroundings : Surroundings) (s : State) (m : OrderedTable Macro)
    (cause : Cause) (place : Location) :
    Follows surroundings s (report cause place) m none := by
  show s.faults.size < (s.faults.push _).size
  rw [Array.size_push]
  exact Nat.lt_succ_self _

theorem clean_eq {l : Lexeme} (hl : l.faults = []) : { l with faults := [] } = l := by
  rw [← hl]

theorem run_peek (s : State) :
    (peek.run surroundings).run s =
      (((next.run surroundings).run s).1, { ((next.run surroundings).run s).2 with
        waiting := ((next.run surroundings).run s).1 ::
          ((next.run surroundings).run s).2.waiting }) := rfl

theorem follows_peek (surroundings : Surroundings) {s : State} {l : Lexeme} {ls : List Lexeme}
    {m : OrderedTable Macro} (h : s.At (l :: ls) m) :
    Follows surroundings s peek m (if l.faults = [] then some (l, l :: ls) else none) := by
  obtain ⟨l', ls', hu', hval, hread⟩ := @read_next surroundings s h.calm
  obtain ⟨rfl, rfl⟩ := List.cons.inj (h.upcoming.symm.trans hu')
  split
  · rename_i hl
    rw [clean_eq hl] at hval
    rw [Follows, run_peek, hval]
    refine ⟨rfl, ⟨?_, ?_, hread.macros.trans h.macros⟩, hread.quiet hl⟩
    · rw [State.upcoming, List.cons_append, throughEnd]
      split
      · rename_i hc
        rw [hread.tail hc]
      · rename_i hc
        rw [← hread.upcoming hc]
        rfl
    · intro l' hl'
      rcases List.mem_cons.mp hl' with rfl | hl'
      · exact hl
      · exact hread.calm l' hl'
  · rename_i hl
    exact hread.loud hl

/-- A lexeme that is looked at is either at fault or goes on to what the look is for. -/
theorem follows_peek_bind {s : State} {l : Lexeme} {ls : List Lexeme} {m m' : OrderedTable Macro}
    {f : Lexeme → Preprocessor α} {r : Option (α × List Lexeme)} (h : s.At (l :: ls) m)
    (hgrows : ∀ a, Grows surroundings (f a)) (hfault : l.faults ≠ [] → r = none)
    (hf : l.faults = [] → ∀ s', s'.At (l :: ls) m → Follows surroundings s' (f l) m' r) :
    Follows surroundings s (peek >>= f) m' r := by
  have hpeek := follows_peek surroundings h
  by_cases hl : l.faults = []
  · rw [if_pos hl] at hpeek
    exact hpeek.bind (hf hl)
  · rw [if_neg hl] at hpeek
    rw [hfault hl]
    exact hpeek.bind_none hgrows

theorem follows_consume (surroundings : Surroundings) {s : State} {l : Lexeme} {ls : List Lexeme}
    {m : OrderedTable Macro} (h : s.At (l :: ls) m) (hc : l.cls ≠ .endOfFile)
    (hl : l.faults = []) : Follows surroundings s consume m (some (l, ls)) := by
  obtain ⟨l', ls', hu', hval, hread⟩ := @read_next surroundings s h.calm
  obtain ⟨rfl, rfl⟩ := List.cons.inj (h.upcoming.symm.trans hu')
  rw [clean_eq hl] at hval
  exact ⟨hval, ⟨hread.upcoming hc, hread.calm, hread.macros.trans h.macros⟩, hread.quiet hl⟩

theorem upcoming_ne_nil (s : State) : s.upcoming ≠ [] := by
  obtain ⟨l, ls, h⟩ := List.exists_cons_of_ne_nil
    (show s.waiting ++ flow s.sources ≠ [] from fun h =>
      flow_ne_nil s.sources (List.append_eq_nil_iff.mp h).2)
  rw [State.upcoming, h, throughEnd]
  split <;> exact List.cons_ne_nil _ _

/-! ## How many lexemes there are -/

theorem length_attach (trivia : List Trivia) (faults : List Location) (ls : List Lexeme) :
    (attach trivia faults ls).length = ls.length := by
  cases ls <;> rfl

theorem length_flowFrom_le (outermost : Bool) (outer ls : List Lexeme) (h : outer ≠ []) :
    (flowFrom outermost outer ls).length ≤ ls.length + outer.length := by
  have hpos := List.length_pos_iff.mpr h
  induction ls with
  | nil => exact Nat.le_add_left _ _
  | cons l ls ih =>
    rw [flowFrom, List.length_cons]
    split
    · split
      · rw [List.length_singleton]
        omega
      · rw [length_attach]
        omega
    · rw [List.length_cons]
      omega

/-- The files hold no more lexemes than are counted. -/
theorem length_flow_le (sources : List Source) (n : Nat) :
    n + (flow sources).length ≤
      sources.foldl (fun count source => count + source.lexemes.length) (n + 1) := by
  induction sources generalizing n with
  | nil => exact Nat.le_refl (n + 1)
  | cons source outer ih =>
    have hflow := length_flowFrom_le outer.isEmpty (flow outer) source.lexemes (flow_ne_nil outer)
    have hrest := ih (n + source.lexemes.length)
    rw [flow, List.foldl_cons, Nat.add_right_comm]
    omega

/-- No more lexemes come next than can be read. -/
theorem follows_remaining (surroundings : Surroundings) {s : State} {ls : List Lexeme}
    {m : OrderedTable Macro} (h : s.At ls m) :
    ∃ n, ls.length ≤ n ∧ Follows surroundings s remaining m (some (n, ls)) := by
  refine ⟨_, ?_, rfl, h, rfl⟩
  rw [← h.upcoming]
  have hflow := length_flow_le s.sources s.waiting.length
  have hup := length_throughEnd_le (s.waiting ++ flow s.sources)
  rw [List.length_append] at hup
  show (throughEnd _).length ≤ s.sources.foldl (fun count source => count + source.lexemes.length)
    (s.waiting.length + 1)
  omega

theorem grows_remaining : Grows surroundings remaining :=
  fun _ => Nat.le_refl _

end HdlLint.Verilog.TokenStream
