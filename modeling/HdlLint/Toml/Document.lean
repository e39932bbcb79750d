import HdlLint.Toml.Element

/-!
# TOML documents

A document is a list of lines: headers, which open tables, and pairs of a key and a value, which
add to the open table. `Toml.read` reads the entries of a document.
-/

namespace HdlLint.Toml

/-- What was read of a document: its entries, the path of the open table, and the number of
headers so far. -/
structure Document where
  entries : Entries
  header : List String
  sections : Nat

/-- The document without lines. -/
def Document.empty : Document :=
  ⟨[], [], 0⟩

/-- The text behind characters that must be next. -/
def after (expected : List Char) (cs : List Char) : Except Fault (List Char) :=
  if expected.isPrefixOf cs then .ok (cs.drop expected.length) else .error .malformed

/-- A header without its first brackets: a key and what closes it. -/
def headerKey (close : List Char) (cs : List Char) : Except Fault (Key × List Char) := do
  let cs := cs.dropWhile isBlank
  let (k, rest) ← key cs.length cs
  return (k, ← after close rest)

/-- Adds what a line says to a document, and gives what follows it on the line. -/
def Document.addLine (d : Document) (cs : List Char) : Except Fault (Document × List Char) :=
  match cs with
  | '#' :: _ => .ok (d, cs)
  | '[' :: '[' :: rest => do
    let (k, rest) ← headerKey [']', ']'] rest
    let entries ← required (extend k d.entries)
    return (⟨entries, k.parts, d.sections + 1⟩, rest)
  | '[' :: rest => do
    let (k, rest) ← headerKey [']'] rest
    let entries ← required (declare k d.entries)
    return (⟨entries, k.parts, d.sections + 1⟩, rest)
  | cs => do
    let (k, rest) ← keyOfPair cs
    let (v, rest) ← element (cs.length + 1) rest
    let entries ← required (update (assign d.sections k v) d.header d.entries)
    return ({ d with entries := entries }, rest)

/-- Adds the lines of a text to a document. -/
def Document.addLines : (depth : Nat) → Document → List Char → Except Fault Document
  | 0, d, _ => .ok d
  | depth + 1, d, cs =>
    match cs.dropWhile isBlank with
    | [] => .ok d
    | '\n' :: rest => addLines depth d rest
    | cs => do
      let (d, rest) ← d.addLine cs
      match ← dropComment (rest.dropWhile isBlank) with
      | [] => return d
      | '\n' :: rest => addLines depth d rest
      | _ => .error .malformed

/-- Line ends of two characters become line ends of one. -/
def joinLineEnds : List Char → List Char
  | '\r' :: '\n' :: rest => '\n' :: joinLineEnds rest
  | c :: rest => c :: joinLineEnds rest
  | [] => []

/-- The entries of a document. -/
def read (text : String) : Except Fault (List (String × Value)) := do
  let cs := joinLineEnds text.toList
  let d ← Document.empty.addLines (cs.length + 1) cs
  return toEntries d.entries

end HdlLint.Toml
