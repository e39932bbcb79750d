import HdlLint.Path

/-!
# Places in source text

A place lies in a text or in the expansion of a macro, whose usage is a place again. A message
about a range names the outermost usage (`Location.outermost`), the file that holds it and a
length (`Range.span`).
-/

namespace HdlLint

/-- A place in source text. -/
inductive Location
  /-- A place in a file: how many bytes stand before it, its line and its column. Places in an
  included file carry the file's name. -/
  | text (included : Option String) (offset line column : Int)
  /-- A place in the expansion of a macro, by its offset there and the place of the usage. -/
  | expansion (offset : Int) (usage : Location)
deriving DecidableEq, Repr

/-- A range of source text, from its start to just behind its end. -/
structure Range where
  start : Location
  stop : Location
deriving DecidableEq, Repr

/-- What a message says about a range: a path, a line, a column and a length. -/
structure Span where
  path : String
  line : Int
  column : Int
  length : Int
deriving DecidableEq, Repr

namespace Location

/-- The first place of a file. -/
def origin : Location :=
  .text none 0 1 1

/-- The offset of a place in its own text. -/
def offset : Location → Int
  | .text _ offset _ _ => offset
  | .expansion offset _ => offset

/-- The place a number of bytes further on the same line. -/
def along (n : Nat) : Location → Location
  | .text included offset line column => .text included (offset + n) line (column + n)
  | .expansion offset usage => .expansion (offset + n) usage

/-- Whether a place lies in the expansion of a macro. -/
def isExpansion : Location → Bool
  | .text .. => false
  | .expansion .. => true

/-- The usage that a place stems from in the end; a place in a text is its own. -/
def outermost : Location → Location
  | .text included offset line column => .text included offset line column
  | .expansion _ usage => usage.outermost

/-- The line of a place, that of the outermost usage. -/
def line : Location → Int
  | .text _ _ line _ => line
  | .expansion _ usage => usage.line

/-- The column of a place, that of the outermost usage. -/
def column : Location → Int
  | .text _ _ _ column => column
  | .expansion _ usage => usage.column

/-- The name of the included file that holds a place, if it lies in one. -/
def included? : Location → Option String
  | .text included _ _ _ => included
  | .expansion _ usage => usage.included?

/-- The path of the file that holds a place. An included file without a name and the file that
was read itself go by the given path. -/
def pathOr (fallback : Path) (l : Location) : String :=
  match l.included? with
  | none => fallback.toString
  | some name => if name = "" then fallback.toString else name

end Location

namespace Range

/-- The range in front of everything. -/
def origin : Range :=
  ⟨.origin, .origin⟩

/-- What a message says about a range. A range that starts in the expansion of a macro is a point
at the usage; all lengths are at least one. -/
def span (fallback : Path) (r : Range) : Span :=
  if r.start.isExpansion then
    let start := r.start.outermost
    ⟨start.pathOr fallback, start.line, start.column, 1⟩
  else
    ⟨r.start.pathOr fallback, r.start.line, r.start.column,
      max (r.stop.offset - r.start.offset) 1⟩

end Range

end HdlLint
