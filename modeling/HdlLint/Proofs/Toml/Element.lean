import HdlLint.Proofs.Toml.Text
import HdlLint.Toml.Element

/-!
# Keys and values read as they were written

A written key with an equals sign behind it (`keyOfPair_writeKey`), a written truth value
(`element_writeBool`) and a written list of texts (`element_writeTexts`) read as what they stand
for.
-/

namespace HdlLint.Toml

variable {cs rest : List Char}

/-! ## Keys -/

/-- A key that stands without quotes ends in front of the first character that none of its kind
is. -/
theorem keyPart_writeKey (name : String) (h : ∀ c ∈ rest.head?, isBare c = false) :
    keyPart (writeKey name ++ rest) = .ok (name, rest) := by
  have hrest : rest.takeWhile isBare = [] ∧ rest.dropWhile isBare = rest := by
    cases rest with
    | nil => exact ⟨rfl, rfl⟩
    | cons c rest =>
      have hc := h c rfl
      exact ⟨List.takeWhile_cons_of_neg (by simp [hc]), List.dropWhile_cons_of_neg (by simp [hc])⟩
  rw [writeKey]
  split
  · next hbare =>
    obtain ⟨hne, hall⟩ := hbare
    have hall : ∀ c ∈ name.toList, isBare c = true := List.all_eq_true.mp hall
    rw [keyPart, List.takeWhile_append_of_pos hall, List.dropWhile_append_of_pos hall, hrest.1, hrest.2,
      List.append_nil, if_neg (by simpa using hne), String.ofList_toList]
  · have hquote : (writeText name ++ rest).takeWhile isBare = [] := by
      simp [writeText, isBare]
    rw [keyPart, hquote, if_pos List.isEmpty_nil, quotedText_writeText, required]
    exact congrArg (fun s => Except.ok (s, rest)) String.ofList_toList

/-- The first character of a written key does not end a key, and starts neither a header nor a
comment. -/
theorem exists_writeKey (name : String) :
    ∃ c cs, writeKey name = c :: cs ∧ (isBare c = true ∨ c = '"') := by
  rw [writeKey]
  split
  · next hbare =>
    obtain ⟨hne, hall⟩ := hbare
    obtain ⟨c, cs, hcs⟩ := List.exists_cons_of_ne_nil hne
    rw [hcs, List.all_cons, Bool.and_eq_true] at hall
    exact ⟨c, cs, hcs, .inl hall.1⟩
  · exact ⟨'"', _, rfl, .inr rfl⟩

/-- A written key with an equals sign between blanks behind it. The blanks in front of what follows
are left out. -/
theorem keyOfPair_writeKey (name : String) (cs : List Char) :
    keyOfPair (writeKey name ++ ' ' :: '=' :: cs) = .ok (⟨[], name⟩, cs.dropWhile isBlank) := by
  have hpart : keyPart (writeKey name ++ ' ' :: '=' :: cs) = .ok (name, ' ' :: '=' :: cs) :=
    keyPart_writeKey name (by simp [isBare])
  obtain ⟨c, ds, hkey, -⟩ := exists_writeKey name
  have hdepth : ∃ depth, (writeKey name ++ ' ' :: '=' :: cs).length = depth + 1 :=
    ⟨_, by rw [hkey, List.cons_append, List.length_cons]⟩
  obtain ⟨depth, hdepth⟩ := hdepth
  rw [keyOfPair, hdepth, key, hpart]
  rfl

/-! ## Values -/

theorem element_writeBool (depth : Nat) (b : Bool) (rest : List Char) :
    element (depth + 1) (writeBool b ++ rest) = .ok (.bool b, rest) := by
  cases b <;> rfl

theorem element_writeText (depth : Nat) (s : String) (h : rest.head? ≠ some '"') :
    element (depth + 1) (writeText s ++ rest) = .ok (.text s, rest) := by
  have hscalar : element (depth + 1) (writeText s ++ rest) = scalar (writeText s ++ rest) := rfl
  have hany : scalar (writeText s ++ rest) = (required (anyText (writeText s ++ rest))).bind
      fun p => .ok (.text (String.ofList p.1), p.2) := rfl
  rw [hscalar, hany, anyText_writeText s h, required]
  exact congrArg (fun s => Except.ok (Value.text s, rest)) String.ofList_toList

/-- The lines of a list of texts, behind the end of the line with the opening bracket. -/
def writeItems (texts : List String) : List Char :=
  texts.flatMap fun s => "    ".toList ++ writeText s ++ [',', '\n']

/-- A quoted item of a list with a comma behind it. -/
theorem listItems_cons {depth : Nat} {cs ds rest' : List Char} {v : Value} {vs : List Value}
    (hcs : dropFiller false cs = .ok ('"' :: ds)) (hv : element depth ('"' :: ds) = .ok (v, ',' :: rest'))
    (hvs : listItems depth rest' = .ok (vs, rest)) :
    listItems (depth + 1) cs = .ok (v :: vs, rest) := by
  have hcomma : dropFiller false (',' :: rest') = .ok (',' :: rest') := rfl
  rw [listItems, hcs]
  simp [bind, Except.bind, hv, hcomma, hvs]
  rfl

/-- The lines of a list, each with its end in front of it, read as its items. -/
theorem listItems_writeItems {texts : List String} {depth : Nat} (h : texts.length < depth)
    (rest : List Char) :
    listItems depth ('\n' :: writeItems texts ++ ']' :: rest) = .ok (texts.map .text, rest) := by
  induction texts generalizing depth with
  | nil =>
    obtain ⟨depth, rfl⟩ := Nat.exists_eq_succ_of_ne_zero (Nat.ne_of_gt h)
    rfl
  | cons s texts ih =>
    rw [List.length_cons] at h
    obtain ⟨depth, rfl⟩ : ∃ d, depth = d + 2 := ⟨depth - 2, by omega⟩
    have hline : '\n' :: writeItems (s :: texts) ++ ']' :: rest =
        '\n' :: "    ".toList ++ (writeText s ++ ',' :: ('\n' :: writeItems texts ++ ']' :: rest)) := by
      simp [writeItems]
    rw [hline]
    exact listItems_cons rfl (element_writeText depth s (by simp)) (ih (by omega))

theorem element_writeTexts (texts : List String) {depth : Nat} (h : texts.length + 1 < depth)
    (rest : List Char) :
    element depth (writeTexts texts ++ rest) = .ok (.list (texts.map .text), rest) := by
  obtain ⟨depth, rfl⟩ : ∃ d, depth = d + 2 := ⟨depth - 2, by omega⟩
  cases texts with
  | nil => rfl
  | cons s texts =>
    have hw : writeTexts (s :: texts) ++ rest =
        '[' :: ('\n' :: writeItems (s :: texts) ++ ']' :: rest) := by
      simp [writeTexts, writeItems]
    rw [hw, element, listItems_writeItems (by omega)]
    rfl

theorem length_le_writeItems (texts : List String) : texts.length ≤ (writeItems texts).length := by
  induction texts with
  | nil => exact Nat.le_refl _
  | cons s texts ih =>
    rw [writeItems, List.flatMap_cons, List.length_append, List.length_cons, List.length_append,
      List.length_append, ← writeItems]
    simp only [List.length_cons, List.length_nil]
    omega

/-- The length of a list is depth enough for its items. -/
theorem length_lt_writeTexts (texts : List String) : texts.length + 1 < (writeTexts texts).length := by
  cases texts with
  | nil => decide
  | cons s texts =>
    have h := length_le_writeItems (s :: texts)
    rw [writeTexts, ← writeItems, List.length_append, List.length_append]
    · simp only [List.length_cons, List.length_nil] at *
      omega
    · nofun

/-! ## Carriage returns -/

theorem not_mem_writeKey (name : String) : '\r' ∉ writeKey name := by
  rw [writeKey]
  split
  · next hbare => exact fun h => absurd (List.all_eq_true.mp hbare.2 _ h) (by decide)
  · exact not_mem_writeText name

theorem not_mem_writeTexts (texts : List String) : '\r' ∉ writeTexts texts := by
  cases texts with
  | nil => decide
  | cons s texts => simp [writeTexts, not_mem_writeText]

end HdlLint.Toml
