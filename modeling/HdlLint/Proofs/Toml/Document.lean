import HdlLint.Proofs.OrderedTable.Update
import HdlLint.Proofs.Toml.Element
import HdlLint.Toml.Document

/-!
# Documents read as they were written

A document of headers and pairs, each on a line of its own, is read line by line (`Reads.line`). A
header opens a table behind all others (`Reads.header`), a pair adds a value to the open table
(`Reads.pair`); a list of rules is read by induction on the pairs.
-/

namespace HdlLint.Toml

variable {d d₁ d' : Document} {cs rest : List Char}

/-! ## Tables -/

/-- A table that a header opened, with the values of its pairs. -/
def openTable (name : String) (pairs : List (String × Value)) : String × Node :=
  (name, .table .declared (pairs.map fun p => (p.1, .value p.2)))

theorem toEntries_append (es es' : Entries) : toEntries (es ++ es') = toEntries es ++ toEntries es' := by
  induction es with
  | nil => rw [List.nil_append, toEntries, List.nil_append]
  | cons e es ih => rw [List.cons_append, toEntries, toEntries, ih, List.cons_append]

theorem toEntries_map_value (pairs : List (String × Value)) :
    toEntries (pairs.map fun p => (p.1, .value p.2)) = pairs := by
  induction pairs with
  | nil => rw [List.map_nil, toEntries]
  | cons p pairs ih => rw [List.map_cons, toEntries, ih, Node.toValue]

theorem toEntries_openTable (name : String) (pairs : List (String × Value)) :
    toEntries [openTable name pairs] = [(name, .table pairs)] := by
  rw [openTable, toEntries, Node.toValue, toEntries_map_value, toEntries]

theorem declare_new {es : Entries} {name : String} (h : name ∉ es.map Prod.fst) :
    declare ⟨[], name⟩ es = some (es ++ [openTable name []]) := by
  rw [declare, update, lookupEntry_eq_none_iff.mpr h]
  exact congrArg some (OrderedTable.writeEntry_of_not_mem h _)

theorem assign_new {es : Entries} {name : String} (h : name ∉ es.map Prod.fst) (n : Nat) (v : Value) :
    assign n ⟨[], name⟩ v es = some (es ++ [(name, .value v)]) := by
  rw [assign, assignAt, lookupEntry_eq_none_iff.mpr h]
  exact congrArg some (OrderedTable.writeEntry_of_not_mem h _)

theorem assign_openTable {es : Entries} {table name : String} {pairs : List (String × Value)}
    (htable : table ∉ es.map Prod.fst) (hname : name ∉ pairs.map Prod.fst) (n : Nat) (v : Value) :
    update (assign n ⟨[], name⟩ v) [table] (es ++ [openTable table pairs]) =
      some (es ++ [openTable table (pairs ++ [(name, v)])]) := by
  have hnew : name ∉ (pairs.map fun p => (p.1, Node.value p.2)).map Prod.fst := by
    rw [List.map_map]
    exact hname
  rw [openTable, update, lookupEntry_append_of_not_mem htable]
  dsimp only
  rw [update, assign_new hnew, Option.map_some, writeEntry_append_of_not_mem htable, openTable,
    List.map_append]
  rfl

/-! ## Lines -/

/-- Reading a text takes one document to another one, given depth enough. -/
def Reads (d : Document) (cs : List Char) (d' : Document) : Prop :=
  ∀ depth, cs.length < depth → d.addLines depth cs = .ok d'

theorem Reads.nil (d : Document) : Reads d [] d := by
  intro depth h
  obtain ⟨depth, rfl⟩ := Nat.exists_eq_succ_of_ne_zero (Nat.ne_of_gt h)
  rfl

theorem Reads.newline (h : Reads d cs d') : Reads d ('\n' :: cs) d' := by
  intro depth hd
  obtain ⟨depth, rfl⟩ := Nat.exists_eq_succ_of_ne_zero (Nat.ne_of_gt (Nat.zero_lt_of_lt hd))
  exact h depth (by simpa using hd)

/-- A line that starts with no blank. -/
theorem Reads.line {c : Char} {line : List Char} (hc : isBlank c = false) (hn : c ≠ '\n')
    (hline : d.addLine (c :: line ++ '\n' :: rest) = .ok (d₁, '\n' :: rest)) (h : Reads d₁ rest d') :
    Reads d (c :: line ++ '\n' :: rest) d' := by
  intro depth hd
  obtain ⟨depth, rfl⟩ := Nat.exists_eq_succ_of_ne_zero (Nat.ne_of_gt (Nat.zero_lt_of_lt hd))
  have hrest : d₁.addLines depth rest = .ok d' := by
    refine h depth ?_
    rw [List.length_append, List.length_cons, List.length_cons] at hd
    omega
  have hend : dropComment (('\n' :: rest).dropWhile isBlank) = .ok ('\n' :: rest) := rfl
  rw [List.cons_append] at hline ⊢
  rw [Document.addLines, List.dropWhile_cons_of_neg (by simp [hc])]
  split
  · next h => cases h
  · next h => exact absurd (List.cons.inj h).1 hn
  · simp only [bind, Except.bind, hline, hend, hrest]

/-- The first character of a key starts neither a comment nor a header. -/
theorem ne_of_isBare {c e : Char} (h : isBare c = true ∨ c = '"') (he : isBare e = false) (hq : e ≠ '"') :
    c ≠ e := by
  rintro rfl
  rcases h with h | rfl
  · rw [he] at h
    cases h
  · exact hq rfl

theorem isBlank_of_isBare {c : Char} (h : isBare c = true ∨ c = '"') : isBlank c = false := by
  have hspace : c ≠ ' ' := ne_of_isBare h rfl (by decide)
  have htab : c ≠ '\t' := ne_of_isBare h rfl (by decide)
  simp [isBlank, hspace, htab]

theorem headerKey_writeKey (name : String) (rest : List Char) :
    headerKey [']'] (writeKey name ++ ']' :: rest) = .ok (⟨[], name⟩, rest) := by
  have hpart : keyPart (writeKey name ++ ']' :: rest) = .ok (name, ']' :: rest) :=
    keyPart_writeKey name (by simp [isBare])
  obtain ⟨c, cs, hkey, hc⟩ := exists_writeKey name
  rw [headerKey, hkey, List.cons_append, List.dropWhile_cons_of_neg (by simp [isBlank_of_isBare hc]),
    List.length_cons, key, ← List.cons_append, ← hkey, hpart]
  rfl

/-- A line with a header. -/
theorem addLine_header (name : String) (d : Document) (rest : List Char) {es : Entries}
    (h : declare ⟨[], name⟩ d.entries = some es) :
    d.addLine ('[' :: writeKey name ++ ']' :: rest) = .ok (⟨es, [name], d.sections + 1⟩, rest) := by
  have hheader := headerKey_writeKey name rest
  obtain ⟨c, cs, hkey, hc⟩ := exists_writeKey name
  have hbracket : c ≠ '[' := ne_of_isBare hc rfl (by decide)
  rw [hkey] at hheader ⊢
  rw [List.cons_append, Document.addLine]
  · simp only [hheader, bind, Except.bind, h, required]
    rfl
  · exact fun r hr => hbracket (List.cons.inj hr).1

/-- A line with a pair. -/
theorem addLine_pair (name : String) (d : Document) {v : Value} {es : Entries} {text : List Char}
    (hv : ∀ depth, text.length ≤ depth → element (depth + 1) (text ++ rest) = .ok (v, rest))
    (htext : (text ++ rest).dropWhile isBlank = text ++ rest)
    (h : update (assign d.sections ⟨[], name⟩ v) d.header d.entries = some es) :
    d.addLine (writeKey name ++ " = ".toList ++ text ++ rest) = .ok (⟨es, d.header, d.sections⟩, rest) := by
  have hpair : keyOfPair (writeKey name ++ ' ' :: '=' :: ' ' :: (text ++ rest)) =
      .ok (⟨[], name⟩, text ++ rest) := by
    rw [keyOfPair_writeKey, List.dropWhile_cons_of_pos rfl, htext]
  obtain ⟨c, cs, hkey, hc⟩ := exists_writeKey name
  have hcomment : c ≠ '#' := ne_of_isBare hc rfl (by decide)
  have hbracket : c ≠ '[' := ne_of_isBare hc rfl (by decide)
  have hcs : writeKey name ++ " = ".toList ++ text ++ rest =
      c :: (cs ++ ' ' :: '=' :: ' ' :: (text ++ rest)) := by
    simp [hkey]
  rw [hkey, List.cons_append] at hpair
  rw [hcs, Document.addLine]
  · have hvalue := hv (c :: (cs ++ ' ' :: '=' :: ' ' :: (text ++ rest))).length (by simp; omega)
    simp only [hpair, bind, Except.bind, hvalue, h, required]
    rfl
  · exact fun r hr => hcomment (List.cons.inj hr).1
  · exact fun r hr => hbracket (List.cons.inj hr).1
  · exact fun r hr => hbracket (List.cons.inj hr).1

/-- A header opens a table with a new name. -/
theorem Reads.header {es : Entries} {name : String} {header : List String} {n : Nat}
    (hname : name ∉ es.map Prod.fst) (h : Reads ⟨es ++ [openTable name []], [name], n + 1⟩ rest d') :
    Reads ⟨es, header, n⟩ ('[' :: writeKey name ++ ']' :: '\n' :: rest) d' := by
  have hline := addLine_header name ⟨es, header, n⟩ ('\n' :: rest) (declare_new hname)
  have hcs : '[' :: writeKey name ++ ']' :: '\n' :: rest =
      '[' :: (writeKey name ++ [']']) ++ '\n' :: rest := by
    simp
  rw [hcs] at hline ⊢
  exact .line rfl (by decide) hline h

/-- A pair adds a value with a new name to the open table. -/
theorem Reads.pair {es : Entries} {table name : String} {pairs : List (String × Value)} {n : Nat}
    {v : Value} {text : List Char} (htable : table ∉ es.map Prod.fst) (hname : name ∉ pairs.map Prod.fst)
    (hv : ∀ depth rest, text.length ≤ depth → element (depth + 1) (text ++ '\n' :: rest) = .ok (v, '\n' :: rest))
    (htext : (text ++ '\n' :: rest).dropWhile isBlank = text ++ '\n' :: rest)
    (h : Reads ⟨es ++ [openTable table (pairs ++ [(name, v)])], [table], n⟩ rest d') :
    Reads ⟨es ++ [openTable table pairs], [table], n⟩
      (writeKey name ++ " = ".toList ++ text ++ '\n' :: rest) d' := by
  have hline := addLine_pair name ⟨es ++ [openTable table pairs], [table], n⟩ (fun depth => hv depth rest) htext
    (assign_openTable htable hname n v)
  obtain ⟨c, cs, hkey, hc⟩ := exists_writeKey name
  have hcs : writeKey name ++ " = ".toList ++ text ++ '\n' :: rest =
      c :: (cs ++ " = ".toList ++ text) ++ '\n' :: rest := by
    simp [hkey]
  rw [hcs] at hline ⊢
  exact .line (isBlank_of_isBare hc) (ne_of_isBare hc rfl (by decide)) hline h

/-! ## Documents -/

theorem joinLineEnds_of_not_mem (h : '\r' ∉ cs) : joinLineEnds cs = cs := by
  fun_induction joinLineEnds cs with
  | case1 rest ih => simp at h
  | case2 c rest _ ih => rw [ih fun hm => h (List.mem_cons_of_mem c hm)]
  | case3 => rfl

/-- A text that is read line by line, from the empty document on, is the document that comes out. -/
theorem Reads.read (h : Reads .empty cs d) (hcr : '\r' ∉ cs) :
    Toml.read (String.ofList cs) = .ok (toEntries d.entries) := by
  rw [Toml.read, String.toList_ofList, joinLineEnds_of_not_mem hcr]
  simp only [h (cs.length + 1) (Nat.lt_succ_self _), bind, Except.bind]
  rfl

end HdlLint.Toml
