/-!
# Source snippets

A snippet shows one line of a source file with notes under a place in it. The place is marked by a
run of carets in front of the first note; the notes stand in one column.

* `Snippet.indent`: the blanks in front of a place, with the tabs of the source line;
* `Snippet.width`: the length of the mark, which never goes beyond the line;
* `Snippet.lines`: all lines of a snippet.
-/

namespace HdlLint

/-- A place in a source file: a line and a column, both counted from one, and a length. -/
structure Snippet where
  path : String
  line : Int
  column : Int
  length : Int

namespace Snippet

/-- The part of a text in front of a position. A negative position counts from the end. -/
def upTo (text : List Char) (position : Int) : List Char :=
  if position < 0 then text.take (text.length - position.natAbs) else text.take position.toNat

/-- The part of the source line in front of the place. -/
def before (s : Snippet) (text : List Char) : List Char :=
  upTo text (s.column - 1)

/-- Blanks as wide as a text: its tabs stay. -/
def blanksLike (text : List Char) : List Char :=
  text.map fun c => if c = '\t' then '\t' else ' '

/-- The blanks in front of the mark. -/
def indent (s : Snippet) (text : List Char) : List Char :=
  blanksLike (s.before text)

/-- The length of the mark: at least one, and else no longer than what is left of the line. -/
def width (s : Snippet) (text : List Char) : Nat :=
  max 1 (min s.length ((text.length : Int) - (s.before text).length)).toNat

/-- Blanks as wide as the number of the line. -/
def gutter (s : Snippet) : List Char :=
  List.replicate (toString s.line).length ' '

/-- The line that says where the place is. -/
def heading (s : Snippet) : String :=
  String.ofList s.gutter ++ s!"--> {s.path}:{s.line}:{s.column}"

/-- A note behind the mark of a place. -/
def noteLine (s : Snippet) (text : List Char) (mark : Char) (note : String) : String :=
  String.ofList (s.gutter ++ " | ".toList ++ s.indent text ++
    List.replicate (s.width text) mark) ++ " " ++ note

/-- The lines of the notes: carets mark the place in front of the first one. -/
def noteLines (s : Snippet) (text : List Char) : List String → List String
  | [] => []
  | note :: notes => s.noteLine text '^' note :: notes.map (s.noteLine text ' ')

/-- The lines of a snippet. Where there is no source line to show, only its heading is left. -/
def lines (s : Snippet) (source : Option String) (notes : List String) : List String :=
  match source with
  | none => [s.heading]
  | some text =>
    [s.heading, String.ofList s.gutter ++ " |", s!"{s.line} | " ++ text] ++
      s.noteLines text.toList notes ++ [""]

end Snippet

end HdlLint
