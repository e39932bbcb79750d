import HdlLint.Proofs.Filelist.Termination

/-!
# Filelists as a monoid

Filelists are a monoid under `merge`, and resolving is a homomorphism to it from lists of lines. The
bound on the depth does not show: a filelist gives what its lines give, each filelist that they name
resolved in the same way (`load_eq`). So lines can be resolved in parts, and what the parts give is
merged (`ofLines_append`).
-/

namespace HdlLint.Filelist

/-- What lines give by themselves, with all filelists resolved that they name. -/
def ofLines (fs : FileSystem) (env : Environment) (lines : List (List Char)) :
    Except FilelistFault Filelist :=
  addLines (load fs env) empty (lines.map (FilelistLine.read env))

/-- One level more makes no difference to a filelist. An endless one has no end at any depth, and
all others are resolved alike with more depth. -/
theorem resolve_succ_eq_load (fs : FileSystem) (env : Environment) (path : Path) :
    resolve fs env (fs.entries.length + 2) path = load fs env path := by
  by_cases hload : load fs env path = .error .endless
  · rw [hload, (load_eq_endless_iff.mp hload).resolve_eq]
  · exact resolve_eq_of_le (Nat.le_succ _) hload

/-- Resolving without a bound: the lines of a filelist, with the filelists that they name resolved. -/
theorem load_eq (fs : FileSystem) (env : Environment) (path : Path) :
    load fs env path =
      match fs.readText path with
      | .error fault => .error (.unreadable path fault)
      | .ok text => ofLines fs env (Text.splitLines text) := by
  rw [← resolve_succ_eq_load, resolve]
  rfl

/-- What lines give is what their parts give, merged. A part that cannot be resolved is the fault of
the whole, the first one where there are two. -/
theorem ofLines_append (fs : FileSystem) (env : Environment) (lines rest : List (List Char)) :
    ofLines fs env (lines ++ rest) = do
      let a ← ofLines fs env lines
      let b ← ofLines fs env rest
      return a.merge b := by
  rw [ofLines, ofLines, List.map_append, addLines_append]
  cases addLines (load fs env) empty (lines.map (FilelistLine.read env)) with
  | error fault => rfl
  | ok a =>
    show addLines (load fs env) a (rest.map (FilelistLine.read env)) = _
    rw [addLines_eq_map_merge, ← ofLines]
    cases ofLines fs env rest <;> rfl

/-- Filelists are a monoid, the order of their definitions included: a name that both filelists
define stands where the first one has it, with the definition of the second one. Resolving is a
homomorphism: filelists give what their lines give, no lines give the empty filelist, and lines one
behind the other give what they give by themselves, merged. -/
theorem merge_monoid_ofLines :
    (∀ a b c : Filelist, (a.merge b).merge c = a.merge (b.merge c)) ∧
    (∀ a : Filelist, empty.merge a = a ∧ a.merge empty = a) ∧
    (∀ a b : Filelist,
      (a.merge b).defines.names =
        a.defines.names ++ b.defines.names.filter (· ∉ a.defines.names) ∧
      ∀ name, (a.merge b).defines.get? name = (b.defines.get? name).or (a.defines.get? name)) ∧
    ∀ (fs : FileSystem) (env : Environment),
      (∀ path, load fs env path =
        match fs.readText path with
        | .error fault => .error (.unreadable path fault)
        | .ok text => ofLines fs env (Text.splitLines text)) ∧
      ofLines fs env [] = .ok empty ∧
      ∀ lines rest, ofLines fs env (lines ++ rest) = do
        let a ← ofLines fs env lines
        let b ← ofLines fs env rest
        return a.merge b := by
  refine ⟨merge_assoc, fun a => ⟨empty_merge a, merge_empty a⟩, fun a b => ?_, fun fs env => ?_⟩
  · exact ⟨OrderedTable.names_update a.defines b.defines, OrderedTable.get?_update a.defines b.defines⟩
  · exact ⟨load_eq fs env, rfl, ofLines_append fs env⟩

end HdlLint.Filelist
