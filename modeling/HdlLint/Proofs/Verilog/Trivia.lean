import HdlLint.Proofs.Text.Front
import HdlLint.Verilog.TokenStream.Basic

/-!
# Trivia of a source text

What the lexer skips in front of a lexeme depends on the characters only: `Lexer.behindTrivia` is the
text behind it. `Lexer.Trivial` tells the texts that are trivia whatever lexeme follows them
(`behindTrivia_append`), and the trivia in front of any lexeme is such a text
(`exists_trivial_of_behindTrivia`).
-/

namespace HdlLint.Verilog.Lexer

open Text (mem_takeWhile head?_dropWhile)

/-! ## Pieces -/

/-- A closed comment is behind its opening what `commentLength` counts. -/
def ClosesComment (u : List Char) : Prop :=
  commentLength u = (u.length, true)

/-- The texts of the pieces of trivia, by their kind and whether they are complete. -/
inductive IsPiece : TriviaKind → Bool → List Char → Prop
  | crlf : IsPiece .lineEnd true ['\r', '\n']
  | lineEnd {c : Char} (hc : Scan.endsLine c = true) : IsPiece .lineEnd true [c]
  | lineComment {u : List Char} (hu : ∀ c ∈ u, Scan.endsLine c = false) :
      IsPiece .lineComment true ('/' :: '/' :: u)
  | blockComment {u : List Char} (hu : ClosesComment u) :
      IsPiece .blockComment true ('/' :: '*' :: u)
  | openComment (u : List Char) : IsPiece .blockComment false ('/' :: '*' :: u)
  | blank {c : Char} {u : List Char} (hc : isLineBlank c = true)
      (hu : ∀ d ∈ u, isLineBlank d = true) : IsPiece .blank true (c :: u)

theorem commentLength_spec (text : List Char) :
    ∃ u r, text = u ++ r ∧ u.length = (commentLength text).1 ∧
      ((commentLength text).2 = true → ClosesComment u) ∧
      ((commentLength text).2 = false → r = []) := by
  fun_induction commentLength text with
  | case1 rest => exact ⟨['*', '/'], rest, rfl, rfl, fun _ => rfl, fun h => Bool.noConfusion h⟩
  | case2 c rest hne n closed h ih =>
    obtain ⟨u, r, rfl, hn, hclosed, hopen⟩ := ih
    rw [h] at hn hclosed hopen
    refine ⟨c :: u, r, rfl, congrArg (· + 1) hn, fun hc => ?_, hopen⟩
    have hu : commentLength u = (u.length, true) := hclosed hc
    rw [ClosesComment, commentLength, hu]
    · rfl
    · exact fun rest' hc hu' => hne (rest' ++ r) hc (by rw [hu']; rfl)
  | case3 => exact ⟨[], [], rfl, rfl, fun h => Bool.noConfusion h, fun _ => rfl⟩

/-- The piece at the front of a text, and what can follow it. -/
theorem trivia?_eq_some {text : List Char} {kind : TriviaKind} {n : Nat} {complete : Bool}
    (h : trivia? text = some (kind, n, complete)) :
    ∃ p r, text = p ++ r ∧ p.length = n ∧ IsPiece kind complete p ∧ (complete = false → r = []) ∧
      (kind = .lineComment → ∀ c ∈ r.head?, Scan.endsLine c = true) := by
  revert h
  fun_cases trivia? text with
  | case1 rest =>
    rintro ⟨⟩
    exact ⟨['\r', '\n'], rest, rfl, rfl, .crlf, nofun, nofun⟩
  | case2 rest =>
    rintro ⟨⟩
    exact ⟨['\r'], rest, rfl, rfl, .lineEnd rfl, nofun, nofun⟩
  | case3 rest =>
    rintro ⟨⟩
    exact ⟨['\n'], rest, rfl, rfl, .lineEnd rfl, nofun, nofun⟩
  | case4 rest =>
    rintro ⟨⟩
    refine ⟨'/' :: '/' :: rest.takeWhile (!Scan.endsLine ·), rest.dropWhile (!Scan.endsLine ·),
      ?_, Nat.add_comm _ 2, .lineComment fun c hc => ?_, nofun, fun _ c hc => ?_⟩
    · rw [List.cons_append, List.cons_append, List.takeWhile_append_dropWhile]
    · simpa using mem_takeWhile c hc
    · simpa using head?_dropWhile _ rest c hc
  | case5 rest n closed hc =>
    rintro ⟨⟩
    obtain ⟨u, r, rfl, hn, hclosed, hopen⟩ := commentLength_spec rest
    rw [hc] at hn hclosed hopen
    obtain rfl : u.length = n := hn
    refine ⟨'/' :: '*' :: u, r, rfl, Nat.add_comm _ 2, ?_, hopen, nofun⟩
    cases complete with
    | true => exact .blockComment (hclosed rfl)
    | false => exact .openComment u
  | case6 c rest _ _ _ _ _ hc =>
    rintro ⟨⟩
    refine ⟨c :: rest.takeWhile isLineBlank, rest.dropWhile isLineBlank, ?_, Nat.add_comm _ 1,
      .blank hc mem_takeWhile, nofun, nofun⟩
    rw [List.cons_append, List.takeWhile_append_dropWhile]
  | case7 => rintro ⟨⟩
  | case8 => rintro ⟨⟩

theorem IsPiece.ne_nil {kind : TriviaKind} {complete : Bool} {p : List Char}
    (h : IsPiece kind complete p) : p ≠ [] := by
  cases h <;> exact List.cons_ne_nil _ _

/-! ## Behind the trivia -/

/-- The text behind the trivia at the front of a text. -/
def behindTrivia (text : List Char) : List Char :=
  match h : trivia? text with
  | none => text
  | some (_, n, _) =>
    have : (text.drop n).length < text.length := by
      obtain ⟨p, r, rfl, rfl, hp, -⟩ := trivia?_eq_some h
      have := List.length_pos_iff.mpr hp.ne_nil
      rw [List.drop_left, List.length_append]
      omega
    behindTrivia (text.drop n)
termination_by text.length
decreasing_by assumption

theorem behindTrivia_of_none {text : List Char} (h : trivia? text = none) :
    behindTrivia text = text := by
  rw [behindTrivia]
  split
  · rfl
  · rename_i h'
    rw [h] at h'
    cases h'

theorem behindTrivia_of_some {text : List Char} {kind : TriviaKind} {n : Nat} {complete : Bool}
    (h : trivia? text = some (kind, n, complete)) :
    behindTrivia text = behindTrivia (text.drop n) := by
  rw [behindTrivia]
  split
  · rename_i h'
    rw [h] at h'
    cases h'
  · rename_i h'
    rw [h] at h'
    cases h'
    rfl

theorem trivia?_behindTrivia (text : List Char) : trivia? (behindTrivia text) = none := by
  fun_induction behindTrivia text with
  | case1 text h => exact h
  | case2 text kind n complete h _ ih => exact ih

/-! ## Blanks, line ends and comments one by one -/

theorem ne_of_isLineBlank {c : Char} (hc : isLineBlank c = true) : c ≠ '\r' ∧ c ≠ '\n' ∧ c ≠ '/' := by
  refine ⟨?_, ?_, ?_⟩ <;> rintro rfl <;> exact absurd hc (by decide)

theorem endsLine_iff {c : Char} : Scan.endsLine c = true ↔ c = '\n' ∨ c = '\r' := by
  rw [Scan.endsLine, Bool.or_eq_true, beq_iff_eq, beq_iff_eq]

theorem trivia?_cons_of_ne {c : Char} (hr : c ≠ '\r') (hn : c ≠ '\n') (hs : c ≠ '/')
    (rest : List Char) :
    trivia? (c :: rest) =
      if isLineBlank c then some (.blank, 1 + (rest.takeWhile isLineBlank).length, true)
      else none := by
  rw [trivia?] <;> intros <;> contradiction

theorem trivia?_blank {c : Char} (hc : isLineBlank c = true) (rest : List Char) :
    trivia? (c :: rest) = some (.blank, 1 + (rest.takeWhile isLineBlank).length, true) := by
  obtain ⟨hr, hn, hs⟩ := ne_of_isLineBlank hc
  rw [trivia?_cons_of_ne hr hn hs, if_pos hc]

theorem trivia?_carriageReturn {rest : List Char} (h : rest.head? ≠ some '\n') :
    trivia? ('\r' :: rest) = some (.lineEnd, 1, true) := by
  rw [trivia?]
  rintro tail rfl
  exact h rfl

theorem trivia?_slash {rest : List Char} (h : rest.head? ≠ some '/') (h' : rest.head? ≠ some '*') :
    trivia? ('/' :: rest) = none := by
  rw [trivia?]
  · rfl
  · exact fun _ h => absurd h (by decide)
  · exact fun h => absurd h (by decide)
  · exact fun h => absurd h (by decide)
  · rintro tail - rfl
    exact h rfl
  · rintro tail - rfl
    exact h' rfl

theorem isSome_trivia?_of_endsLine {c : Char} (hc : Scan.endsLine c = true) (rest : List Char) :
    trivia? (c :: rest) ≠ none := by
  rcases endsLine_iff.mp hc with rfl | rfl
  · nofun
  · by_cases h : rest.head? = some '\n'
    · obtain ⟨tail, rfl⟩ := List.head?_eq_some_iff.mp h
      nofun
    · rw [trivia?_carriageReturn h]
      nofun

/-- Where no trivia starts: neither a blank, nor a line end, nor a comment. -/
theorem trivia?_cons_eq_none {c : Char} {rest : List Char} :
    trivia? (c :: rest) = none ↔ isLineBlank c = false ∧ Scan.endsLine c = false ∧
      (c = '/' → rest.head? ≠ some '/' ∧ rest.head? ≠ some '*') := by
  cases hl : Scan.endsLine c with
  | true => exact ⟨fun h => absurd h (isSome_trivia?_of_endsLine hl rest), fun h => (nomatch h.2.1)⟩
  | false =>
    by_cases hs : c = '/'
    · subst hs
      refine ⟨fun h => ⟨rfl, rfl, fun _ => ⟨fun hd => ?_, fun hd => ?_⟩⟩, fun h => ?_⟩
      · obtain ⟨tail, rfl⟩ := List.head?_eq_some_iff.mp hd
        cases h
      · obtain ⟨tail, rfl⟩ := List.head?_eq_some_iff.mp hd
        cases h
      · exact trivia?_slash (h.2.2 rfl).1 (h.2.2 rfl).2
    · have hne : ¬(c = '\n' ∨ c = '\r') := fun h => absurd (endsLine_iff.mpr h) (by rw [hl]; nofun)
      rw [not_or] at hne
      rw [trivia?_cons_of_ne hne.2 hne.1 hs]
      cases hb : isLineBlank c <;> simp [hs]

theorem behindTrivia_blank {c : Char} (hc : isLineBlank c = true) (rest : List Char) :
    behindTrivia (c :: rest) = behindTrivia (rest.dropWhile isLineBlank) := by
  rw [behindTrivia_of_some (trivia?_blank hc rest), Nat.add_comm, List.drop_succ_cons]
  conv => lhs; arg 1; arg 2; rw [← List.takeWhile_append_dropWhile (p := isLineBlank) (l := rest)]
  rw [List.drop_left]

theorem behindTrivia_dropWhile (text : List Char) :
    behindTrivia (text.dropWhile isLineBlank) = behindTrivia text := by
  cases text with
  | nil => rfl
  | cons c rest =>
    cases hc : isLineBlank c with
    | false => rw [List.dropWhile_cons_of_neg (Bool.eq_false_iff.mp hc)]
    | true => rw [List.dropWhile_cons_of_pos hc, behindTrivia_blank hc]

theorem behindTrivia_cons {c : Char} (hc : isLineBlank c = true ∨ Scan.endsLine c = true)
    (rest : List Char) : behindTrivia (c :: rest) = behindTrivia rest := by
  rcases hc with hc | hc
  · rw [behindTrivia_blank hc, behindTrivia_dropWhile]
  · rcases endsLine_iff.mp hc with rfl | rfl
    · exact @behindTrivia_of_some _ .lineEnd 1 true rfl
    · by_cases h : rest.head? = some '\n'
      · obtain ⟨tail, rfl⟩ := List.head?_eq_some_iff.mp h
        rw [@behindTrivia_of_some _ .lineEnd 2 true rfl]
        exact (@behindTrivia_of_some ('\n' :: tail) .lineEnd 1 true rfl).symm
      · exact behindTrivia_of_some (trivia?_carriageReturn h)

theorem ClosesComment.append {u : List Char} (h : ClosesComment u) (r : List Char) :
    commentLength (u ++ r) = (u.length, true) := by
  rw [ClosesComment] at h
  revert h
  fun_induction commentLength u with
  | case1 rest =>
    intro h
    obtain rfl : rest = [] := List.length_eq_zero_iff.mp (by
      have := congrArg Prod.fst h
      simp only [List.length_cons] at this
      omega)
    rfl
  | case2 c rest hne n closed hc ih =>
    intro h
    obtain ⟨hn, rfl⟩ := Prod.mk.inj h
    obtain rfl : n = rest.length := Nat.succ.inj hn
    rw [List.cons_append, commentLength, ih hc]
    · rfl
    · intro tail hs htail
      cases rest with
      | nil => cases hc
      | cons d rest =>
        obtain ⟨rfl, -⟩ := List.cons.inj htail
        exact hne rest hs rfl
  | case3 => nofun

theorem behindTrivia_blockComment {u : List Char} (h : ClosesComment u) (rest : List Char) :
    behindTrivia ('/' :: '*' :: (u ++ rest)) = behindTrivia rest := by
  have ht : trivia? ('/' :: '*' :: (u ++ rest)) = some (.blockComment, 2 + u.length, true) := by
    rw [trivia?, h.append rest]
  rw [behindTrivia_of_some ht, Nat.add_comm, List.drop_succ_cons, List.drop_succ_cons,
    List.drop_left]

theorem behindTrivia_lineComment {u : List Char} (h : ∀ c ∈ u, Scan.endsLine c = false) {e : Char}
    (he : Scan.endsLine e = true) (rest : List Char) :
    behindTrivia ('/' :: '/' :: (u ++ e :: rest)) = behindTrivia (e :: rest) := by
  have hu : (u ++ e :: rest).takeWhile (!Scan.endsLine ·) = u :=
    Text.takeWhile_append_of_head (fun c hc => by rw [h c hc]; rfl) fun c hc => by
      cases hc
      rw [he]
      rfl
  have ht : trivia? ('/' :: '/' :: (u ++ e :: rest)) = some (.lineComment, 2 + u.length, true) := by
    rw [trivia?, hu]
  rw [behindTrivia_of_some ht, Nat.add_comm, List.drop_succ_cons, List.drop_succ_cons,
    List.drop_left]

/-! ## Texts that are trivia -/

/-- Texts that are trivia, whatever lexeme follows them. -/
inductive Trivial : List Char → Prop
  | nil : Trivial []
  | blank {c : Char} {t : List Char} (hc : isLineBlank c = true ∨ Scan.endsLine c = true)
      (ht : Trivial t) : Trivial (c :: t)
  | blockComment {u t : List Char} (hu : ClosesComment u) (ht : Trivial t) :
      Trivial ('/' :: '*' :: (u ++ t))
  | lineComment {u t : List Char} {e : Char} (hu : ∀ c ∈ u, Scan.endsLine c = false)
      (he : Scan.endsLine e = true) (ht : Trivial (e :: t)) : Trivial ('/' :: '/' :: (u ++ e :: t))

theorem behindTrivia_append {t : List Char} (ht : Trivial t) (x : List Char) :
    behindTrivia (t ++ x) = behindTrivia x := by
  induction ht with
  | nil => rfl
  | blank hc _ ih => rw [List.cons_append, behindTrivia_cons hc, ih]
  | blockComment hu _ ih =>
    rw [List.cons_append, List.cons_append, List.append_assoc, behindTrivia_blockComment hu, ih]
  | lineComment hu he _ ih =>
    rw [List.cons_append, List.cons_append, List.append_assoc, List.cons_append,
      behindTrivia_lineComment hu he, ← ih, List.cons_append]

theorem Trivial.append {t t' : List Char} (ht : Trivial t) (ht' : Trivial t') :
    Trivial (t ++ t') := by
  induction ht with
  | nil => exact ht'
  | blank hc _ ih => exact .blank hc ih
  | blockComment hu _ ih =>
    rw [List.cons_append, List.cons_append, List.append_assoc]
    exact .blockComment hu ih
  | lineComment hu he _ ih =>
    rw [List.cons_append, List.cons_append, List.append_assoc]
    exact .lineComment hu he ih

theorem Trivial.of_blanks {t : List Char}
    (h : ∀ c ∈ t, isLineBlank c = true ∨ Scan.endsLine c = true) : Trivial t := by
  induction t with
  | nil => exact .nil
  | cons c t ih =>
    obtain ⟨hc, ht⟩ := List.forall_mem_cons.mp h
    exact .blank hc (ih ht)

/-- Blanks of any kind in front of trivia can be taken away. -/
theorem Trivial.dropWhile {t : List Char} (ht : Trivial t) (p : Char → Bool) (hp : p '/' = false) :
    Trivial (t.dropWhile p) := by
  induction ht with
  | nil => exact .nil
  | @blank c t hc ht ih =>
    rw [List.dropWhile_cons]
    split
    · exact ih
    · exact .blank hc ht
  | blockComment hu ht _ =>
    rw [List.dropWhile_cons_of_neg (by rw [hp]; nofun)]
    exact .blockComment hu ht
  | lineComment hu he ht _ =>
    rw [List.dropWhile_cons_of_neg (by rw [hp]; nofun)]
    exact .lineComment hu he ht

/-- The trivia in front of a lexeme is trivia whatever lexeme follows. -/
theorem exists_trivial_of_behindTrivia {text : List Char} (h : behindTrivia text ≠ []) :
    ∃ t, text = t ++ behindTrivia text ∧ Trivial t := by
  fun_induction behindTrivia text with
  | case1 text _ => exact ⟨[], rfl, .nil⟩
  | case2 text kind n complete hp _ ih =>
    obtain ⟨p, r, rfl, rfl, hpiece, hopen, hline⟩ := trivia?_eq_some hp
    rw [List.drop_left] at h ih ⊢
    obtain ⟨t, hr, ht⟩ := ih h
    refine ⟨p ++ t, by rw [List.append_assoc, ← hr], ?_⟩
    cases hpiece with
    | crlf => exact .blank (.inr rfl) (.blank (.inr rfl) ht)
    | lineEnd hc => exact .blank (.inr hc) ht
    | blockComment hu => exact .blockComment hu ht
    | openComment u =>
      obtain rfl := hopen rfl
      exact absurd (behindTrivia_of_none rfl) h
    | blank hc hu =>
      exact .blank (.inl hc) ((Trivial.of_blanks fun d hd => .inl (hu d hd)).append ht)
    | lineComment hu =>
      -- a comment ends at a line end, which is a piece of its own
      cases t with
      | nil =>
        obtain ⟨e, r', hr'⟩ := List.exists_cons_of_ne_nil h
        rw [List.nil_append] at hr
        have he : Scan.endsLine e = true := hline rfl e (by rw [hr, hr']; rfl)
        have hn := trivia?_behindTrivia r
        rw [hr'] at hn
        exact absurd hn (isSome_trivia?_of_endsLine he r')
      | cons e t =>
        have he : Scan.endsLine e = true := hline rfl e (by rw [hr]; rfl)
        exact .lineComment hu he ht

/-! ## Reading trivia -/

open TokenStream (triviaText)

theorem rest_skip (s : Scan) : s.skip.rest = s.rest.drop 1 := by
  rw [Scan.skip]
  split
  · rename_i h
    rw [h]
    rfl
  · rename_i h
    rw [h]
    dsimp only
    repeat' split
    all_goals rfl

theorem rest_skipMany (s : Scan) (n : Nat) : (s.skipMany n).rest = s.rest.drop n := by
  induction n generalizing s with
  | zero => rfl
  | succ n ih => rw [Scan.skipMany, ih, rest_skip, List.drop_drop, Nat.add_comm]

theorem readTrivia_of_some {s : Scan} {kind : TriviaKind} {n : Nat} {complete : Bool}
    (h : trivia? s.rest = some (kind, n, complete)) (included : Option String) (count : Nat) :
    readTrivia included (count + 1) s =
      (.text kind (String.ofList (s.rest.take n)) :: (readTrivia included count (s.skipMany n)).1,
        if complete then (readTrivia included count (s.skipMany n)).2.1
        else (s.skipMany n).place included :: (readTrivia included count (s.skipMany n)).2.1,
        (readTrivia included count (s.skipMany n)).2.2) := by
  rw [readTrivia]
  simp only [h]

theorem readTrivia_of_none {s : Scan} (h : trivia? s.rest = none) (included : Option String)
    (count : Nat) : readTrivia included count s = ([], [], s) := by
  cases count with
  | zero => rfl
  | succ count =>
    rw [readTrivia]
    simp only [h]

theorem triviaText_cons (kind : TriviaKind) (u : List Char) (pieces : List Trivia) :
    triviaText (.text kind (String.ofList u) :: pieces) = u ++ triviaText pieces := by
  show (String.ofList u).toList ++ _ = _
  rw [String.toList_ofList]
  rfl

/-- Trivia is read to its end, and nothing of it is lost. -/
theorem readTrivia_text (included : Option String) {count : Nat} {s : Scan}
    (h : s.rest.length < count) :
    (readTrivia included count s).2.2.rest = behindTrivia s.rest ∧
      triviaText (readTrivia included count s).1 ++ behindTrivia s.rest = s.rest := by
  induction count generalizing s with
  | zero => cases h
  | succ count ih =>
    cases hp : trivia? s.rest with
    | none =>
      rw [readTrivia_of_none hp, behindTrivia_of_none hp]
      exact ⟨rfl, rfl⟩
    | some piece =>
      obtain ⟨kind, n, complete⟩ := piece
      obtain ⟨p, r, hs, hn, hpiece, -⟩ := trivia?_eq_some hp
      have hpos := List.length_pos_iff.mpr hpiece.ne_nil
      have hlen : (s.skipMany n).rest.length < count := by
        rw [rest_skipMany, hs, ← hn, List.drop_left]
        rw [hs, List.length_append] at h
        omega
      obtain ⟨hrest, htext⟩ := ih hlen
      rw [readTrivia_of_some hp, behindTrivia_of_some hp]
      rw [rest_skipMany] at hrest htext
      refine ⟨hrest, ?_⟩
      rw [triviaText_cons, List.append_assoc, htext, List.take_append_drop]

theorem keepsLine_of_isPiece {kind : TriviaKind} {complete : Bool} {p : List Char}
    (h : IsPiece kind complete p) (hk : kind ≠ .lineComment) :
    Lexeme.keepsLine (.text kind (String.ofList p)) = true ↔ ∀ c ∈ p, Scan.endsLine c = false := by
  have hcomment : Lexeme.keepsLine (.text .blockComment (String.ofList p)) = true ↔
      ∀ c ∈ p, Scan.endsLine c = false := by
    simp only [Lexeme.keepsLine, String.toList_ofList, Bool.not_eq_true', Bool.or_eq_false_iff,
      List.contains_eq_mem, decide_eq_false_iff_not]
    constructor
    · intro ⟨hn, hr⟩ c hc
      rw [Bool.eq_false_iff, ne_eq, endsLine_iff]
      rintro (rfl | rfl)
      · exact hn hc
      · exact hr hc
    · intro hp
      exact ⟨fun hm => absurd (hp _ hm) (by decide), fun hm => absurd (hp _ hm) (by decide)⟩
  cases h with
  | crlf => exact ⟨nofun, fun h => absurd (h '\n' (by decide)) (by decide)⟩
  | lineEnd hc => exact ⟨nofun, fun h => absurd (h _ List.mem_cons_self) (by rw [hc]; nofun)⟩
  | lineComment hu => exact absurd rfl hk
  | blockComment hu => exact hcomment
  | openComment u => exact hcomment
  | blank hc hu =>
    refine ⟨fun _ d hd => ?_, fun _ => rfl⟩
    rw [Bool.eq_false_iff, ne_eq, endsLine_iff]
    have hb : isLineBlank d = true := by
      rcases List.mem_cons.mp hd with rfl | hd
      · exact hc
      · exact hu d hd
    exact fun hd => hd.elim (ne_of_isLineBlank hb).2.1 (ne_of_isLineBlank hb).1

/-- A line end that stands where trivia is read, as behind a line comment, is part of it. -/
theorem exists_endsLine_readTrivia (included : Option String) {count : Nat} {s : Scan}
    (h : s.rest.length < count) (hne : behindTrivia s.rest ≠ [])
    (hhead : ∀ e ∈ s.rest.head?, Scan.endsLine e = true) :
    ∃ e ∈ triviaText (readTrivia included count s).1, Scan.endsLine e = true := by
  obtain ⟨-, htext⟩ := readTrivia_text included h
  cases ht : triviaText (readTrivia included count s).1 with
  | nil =>
    rw [ht, List.nil_append] at htext
    obtain ⟨e, r, hr⟩ := List.exists_cons_of_ne_nil hne
    have he : Scan.endsLine e = true := hhead e (by rw [← htext, hr]; rfl)
    have hnone := trivia?_behindTrivia s.rest
    rw [hr] at hnone
    exact absurd hnone (isSome_trivia?_of_endsLine he r)
  | cons e t =>
    rw [ht] at htext
    exact ⟨e, List.mem_cons_self, hhead e (by rw [← htext]; rfl)⟩

/-- Trivia in front of a lexeme keeps the line where it holds no line end. -/
theorem all_keepsLine_readTrivia (included : Option String) {count : Nat} {s : Scan}
    (h : s.rest.length < count) (hne : behindTrivia s.rest ≠ []) :
    (readTrivia included count s).1.all Lexeme.keepsLine = true ↔
      ∀ c ∈ triviaText (readTrivia included count s).1, Scan.endsLine c = false := by
  induction count generalizing s with
  | zero => cases h
  | succ count ih =>
    cases hp : trivia? s.rest with
    | none =>
      rw [readTrivia_of_none hp]
      exact ⟨fun _ _ h => (nomatch h), fun _ => rfl⟩
    | some piece =>
      obtain ⟨kind, n, complete⟩ := piece
      obtain ⟨p, r, hs, hn, hpiece, hopen, hline⟩ := trivia?_eq_some hp
      have hpos := List.length_pos_iff.mpr hpiece.ne_nil
      have hrest : (s.skipMany n).rest = r := by rw [rest_skipMany, hs, ← hn, List.drop_left]
      have htake : s.rest.take n = p := by rw [hs, ← hn, List.take_left]
      have hlen : (s.skipMany n).rest.length < count := by
        rw [hrest]
        rw [hs, List.length_append] at h
        omega
      rw [behindTrivia_of_some hp, ← rest_skipMany] at hne
      have ih := ih hlen hne
      rw [readTrivia_of_some hp, htake, triviaText_cons, List.all_cons, Bool.and_eq_true, ih,
        List.forall_mem_append]
      by_cases hk : kind = .lineComment
      · -- the comment ends at a line end, which is trivia too
        subst hk
        refine ⟨fun h => (nomatch h.1), fun h => ?_⟩
        obtain ⟨e, he, hend⟩ := exists_endsLine_readTrivia included hlen hne
          (by rw [hrest]; exact hline rfl)
        rw [h.2 e he] at hend
        cases hend
      · rw [keepsLine_of_isPiece hpiece hk]

theorem readTrivia_eq_nil_iff (included : Option String) {count : Nat} {s : Scan}
    (h : s.rest.length < count) :
    (readTrivia included count s).1 = [] ↔ triviaText (readTrivia included count s).1 = [] := by
  cases count with
  | zero => cases h
  | succ count =>
    cases hp : trivia? s.rest with
    | none =>
      rw [readTrivia_of_none hp]
      exact ⟨fun _ => rfl, fun _ => rfl⟩
    | some piece =>
      obtain ⟨kind, n, complete⟩ := piece
      obtain ⟨p, r, hs, hn, hpiece, -⟩ := trivia?_eq_some hp
      have htake : s.rest.take n = p := by rw [hs, ← hn, List.take_left]
      rw [readTrivia_of_some hp, htake, triviaText_cons]
      exact ⟨fun h => (nomatch h), fun h => absurd (List.append_eq_nil_iff.mp h).1 hpiece.ne_nil⟩

/-- Only a comment that is not closed is at fault, and nothing is behind it. -/
theorem faults_readTrivia (included : Option String) {count : Nat} {s : Scan}
    (h : (readTrivia included count s).2.1 ≠ []) : behindTrivia s.rest = [] ∧ '/' ∈ s.rest := by
  induction count generalizing s with
  | zero => exact absurd rfl h
  | succ count ih =>
    cases hp : trivia? s.rest with
    | none =>
      rw [readTrivia_of_none hp] at h
      exact absurd rfl h
    | some piece =>
      obtain ⟨kind, n, complete⟩ := piece
      obtain ⟨p, r, hs, hn, hpiece, hopen, -⟩ := trivia?_eq_some hp
      have hrest : (s.skipMany n).rest = s.rest.drop n := rest_skipMany s n
      rw [readTrivia_of_some hp] at h
      rw [behindTrivia_of_some hp]
      cases complete with
      | true =>
        obtain ⟨hbehind, hslash⟩ := ih h
        rw [hrest] at hbehind hslash
        exact ⟨hbehind, List.mem_of_mem_drop hslash⟩
      | false =>
        obtain rfl := hopen rfl
        rw [List.append_nil] at hs
        rw [hs, ← hn, List.drop_length]
        refine ⟨behindTrivia_of_none rfl, ?_⟩
        cases hpiece
        exact List.mem_cons_self

end HdlLint.Verilog.Lexer
