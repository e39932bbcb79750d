import HdlLint.OrderedTable
import HdlLint.Value

/-!
# Tables of TOML documents

A document builds its tables piece by piece: a header opens a table or adds one to a list of
tables, a pair of a key and a value adds to the table that is open. Each table remembers how it
came about, since a table is opened by one header only, and dotted keys add to it only where they
made it themselves.

* `Toml.declare`: what a header does;
* `Toml.extend`: what a header of a list of tables does;
* `Toml.assign`: what a key with a value does.
-/

namespace HdlLint.Toml

/-- The name of an entry, with the tables that lead to it. -/
structure Key where
  parents : List String
  name : String
deriving DecidableEq, Repr

namespace Key

/-- All parts of a key. -/
def parts (k : Key) : List String :=
  k.parents ++ [k.name]

end Key

/-- How a table came about. -/
inductive Opening
  /-- As a part of the header of another table. -/
  | implied
  /-- By a header of its own. -/
  | declared
  /-- By dotted keys of a section. -/
  | dotted (sectionNumber : Nat)
deriving DecidableEq, Repr

/-- What stands at a name while a document is built. -/
inductive Node
  | value (v : Value)
  | table (opening : Opening) (entries : List (String × Node))
  /-- A list of tables. The last one is open, those before it are done. -/
  | tables (done : List Value) (last : List (String × Node))

/-- The entries of a table while it is built. -/
abbrev Entries := List (String × Node)

mutual

/-- The value of a node. -/
def Node.toValue : Node → Value
  | .value v => v
  | .table _ entries => .table (toEntries entries)
  | .tables done last => .list (done ++ [.table (toEntries last)])

/-- The values of entries. -/
def toEntries : List (String × Node) → List (String × Value)
  | [] => []
  | (name, node) :: rest => (name, node.toValue) :: toEntries rest

end

/-- Changes the table at the end of a path. Tables that are missing on the way come about, and of
a list of tables the last one counts. -/
def update (change : Entries → Option Entries) : List String → Entries → Option Entries
  | [], entries => change entries
  | name :: path, entries =>
    match lookupEntry name entries with
    | none =>
      (update change path []).map fun inner => writeEntry name (.table .implied inner) entries
    | some (.table opening inner) =>
      (update change path inner).map fun inner => writeEntry name (.table opening inner) entries
    | some (.tables done last) =>
      (update change path last).map fun last => writeEntry name (.tables done last) entries
    | some (.value _) => none

/-- Opens the table of a header. -/
def declare (key : Key) : Entries → Option Entries :=
  update (fun entries =>
    match lookupEntry key.name entries with
    | none => some (writeEntry key.name (.table .declared []) entries)
    | some (.table .implied inner) =>
      some (writeEntry key.name (.table .declared inner) entries)
    | some _ => none) key.parents

/-- Adds a table to the list of a header. -/
def extend (key : Key) : Entries → Option Entries :=
  update (fun entries =>
    match lookupEntry key.name entries with
    | none => some (writeEntry key.name (.tables [] []) entries)
    | some (.tables done last) =>
      some (writeEntry key.name (.tables (done ++ [.table (toEntries last)]) []) entries)
    | some _ => none) key.parents

/-- Whether dotted keys of a section may add to a table. -/
def Opening.admits (opening : Opening) (sectionNumber : Nat) : Bool :=
  match opening with
  | .implied => true
  | .declared => false
  | .dotted n => n = sectionNumber

/-- Writes a value to a name behind a path of dotted keys. -/
def assignAt (sectionNumber : Nat) (name : String) (value : Value) :
    List String → Entries → Option Entries
  | [], entries =>
    match lookupEntry name entries with
    | none => some (writeEntry name (.value value) entries)
    | some _ => none
  | part :: path, entries =>
    match lookupEntry part entries with
    | none =>
      (assignAt sectionNumber name value path []).map fun inner =>
        writeEntry part (.table (.dotted sectionNumber) inner) entries
    | some (.table opening inner) =>
      if opening.admits sectionNumber then
        (assignAt sectionNumber name value path inner).map fun inner =>
          writeEntry part (.table (.dotted sectionNumber) inner) entries
      else none
    | some _ => none

/-- Writes a value to a key. -/
def assign (sectionNumber : Nat) (key : Key) (value : Value) : Entries → Option Entries :=
  assignAt sectionNumber key.name value key.parents

end HdlLint.Toml
