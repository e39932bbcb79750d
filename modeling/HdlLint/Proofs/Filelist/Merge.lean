import HdlLint.Filelist
import HdlLint.Proofs.OrderedTable.Update

/-!
# Filelists one behind the other

`Filelist.merge` associates and has the empty filelist on both sides, the order of the definitions
included. Adding lines therefore respects it: what lines add to a merged filelist is what they add
to its last part (`addLines_merge`), and so lines that are added to anything add what they give by
themselves (`addLines_eq_map_merge`).
-/

namespace HdlLint

namespace DefineTable

theorem foldl_define_update (s t : DefineTable) (ds : List Define) :
    ds.foldl define (s.update t) = s.update (ds.foldl define t) := by
  induction ds generalizing t with
  | nil => rfl
  | cons d ds ih => rw [List.foldl_cons, define, ← OrderedTable.update_insert, ih, List.foldl_cons, define]

end DefineTable

namespace Filelist

variable (resolve : Path → Except FilelistFault Filelist)

theorem merge_assoc (a b c : Filelist) : (a.merge b).merge c = a.merge (b.merge c) := by
  simp only [merge, List.append_assoc, OrderedTable.update_update]

theorem merge_empty (a : Filelist) : a.merge empty = a := by
  simp only [merge, empty, List.append_nil, OrderedTable.update_empty]

theorem empty_merge (a : Filelist) : empty.merge a = a := by
  simp only [merge, empty, List.nil_append, OrderedTable.empty_update]

theorem addLine_merge (a b : Filelist) (line : FilelistLine) :
    addLine resolve (a.merge b) line = (addLine resolve b line).map a.merge := by
  cases line with
  | noise => rfl
  | includes directories => simp only [addLine, merge, Except.map, List.append_assoc]
  | defines defines => simp only [addLine, merge, Except.map, DefineTable.foldl_define_update]
  | nested path =>
    cases h : resolve path with
    | error fault => simp only [addLine, h, Except.map]
    | ok inner => simp only [addLine, h, Except.map, merge_assoc]
  | source path => simp only [addLine, merge, Except.map, List.append_assoc]

theorem addLines_cons (a : Filelist) (line : FilelistLine) (lines : List FilelistLine) :
    addLines resolve a (line :: lines) = (addLine resolve a line).bind (addLines resolve · lines) := by
  rw [addLines]
  cases addLine resolve a line <;> rfl

theorem addLines_append (a : Filelist) (lines rest : List FilelistLine) :
    addLines resolve a (lines ++ rest) = (addLines resolve a lines).bind (addLines resolve · rest) := by
  induction lines generalizing a with
  | nil => rfl
  | cons line lines ih =>
    rw [List.cons_append, addLines_cons, addLines_cons]
    cases addLine resolve a line with
    | error fault => rfl
    | ok b => exact ih b

theorem addLines_merge (a b : Filelist) (lines : List FilelistLine) :
    addLines resolve (a.merge b) lines = (addLines resolve b lines).map a.merge := by
  induction lines generalizing b with
  | nil => rfl
  | cons line lines ih =>
    rw [addLines_cons, addLines_cons, addLine_merge]
    cases addLine resolve b line with
    | error fault => rfl
    | ok c => exact ih c

theorem addLines_eq_map_merge (a : Filelist) (lines : List FilelistLine) :
    addLines resolve a lines = (addLines resolve empty lines).map a.merge := by
  rw [← addLines_merge, merge_empty]

end Filelist

end HdlLint
