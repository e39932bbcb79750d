import HdlLint.Proofs.Define.Line
import HdlLint.Source
import HdlLint.Text.Blank

/-!
# The macro that a line defines

A definition on one line starts with the name of the macro, which a parenthesis, an equals sign or a
blank ends (`startingName`). That is the name of the definition as far as it goes on without one of
these (`startingName_toPredefine`), so where the definitions of a table are all under their own
names, the lines that a parser is given define what these names start with
(`IsKeyed.map_startingName_predefines`).
-/

namespace HdlLint

namespace Define

/-- Whether a character ends the name at the start of a line. -/
def endsName (c : Char) : Bool :=
  c = '(' || c = '=' || Text.isBlank c

/-- The name at the start of a line, which is that of the macro that it defines. -/
def startingName (line : String) : String :=
  String.ofList (line.toList.takeWhile fun c => !endsName c)

theorem exists_toList_toPredefine (d : Define) :
    ∃ rest, d.toPredefine.toList = d.identifier.toList ++ rest ∧
      ∀ c ∈ rest.head?, endsName c = true := by
  rw [toList_toPredefine, headText]
  by_cases hargs : d.arguments = []
  · refine ⟨tailText d.text, by rw [if_pos hargs], fun c hc => ?_⟩
    cases htext : d.text with
    | none =>
      rw [htext] at hc
      cases hc
    | some text =>
      rw [htext] at hc
      obtain rfl := Option.some.inj hc
      rfl
  · rw [if_neg hargs, List.append_assoc]
    refine ⟨_, rfl, fun c hc => ?_⟩
    obtain rfl := Option.some.inj hc
    rfl

theorem startingName_toPredefine (d : Define) :
    startingName d.toPredefine = startingName d.identifier := by
  obtain ⟨rest, hrest, hends⟩ := exists_toList_toPredefine d
  have hnone : rest.takeWhile (fun c => !endsName c) = [] := by
    cases rest with
    | nil => rfl
    | cons c rest => rw [List.takeWhile_cons_of_neg (by simp [hends c rfl])]
  rw [startingName, startingName, hrest, List.takeWhile_append, hnone, List.append_nil]
  split
  · next hlen => rw [(List.takeWhile_prefix _).eq_of_length hlen]
  · rfl

end Define

namespace DefineTable

theorem IsKeyed.map_identifier_values {table : DefineTable} (h : table.IsKeyed) :
    table.values.map Define.identifier = table.names := by
  rw [OrderedTable.values, OrderedTable.names, List.map_map]
  exact List.map_congr_left fun e he => (h e he).symm

/-- The lines that a parser is given for a table define what its names start with, in their order. -/
theorem IsKeyed.map_startingName_predefines {table : DefineTable} (h : table.IsKeyed) (path : Path)
    (includes : List Path) (ignoreInclude : Bool) :
    (ParsedSource.request path table includes ignoreInclude).predefines.map Define.startingName =
      table.names.map Define.startingName := by
  rw [ParsedSource.request, List.map_map, ← h.map_identifier_values, List.map_map]
  exact List.map_congr_left fun d _ => d.startingName_toPredefine

end DefineTable

end HdlLint
