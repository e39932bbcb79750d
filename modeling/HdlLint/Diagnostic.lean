import HdlLint.FileSystem
import HdlLint.IncludeUse
import HdlLint.MacroUse
import HdlLint.SourceError
import HdlLint.Syntax.Location

/-!
# Diagnostics

What a parser of source files reports. A diagnostic is classified by the words in its code, or else
in its rendered report (`Diagnostic.kind`), and becomes an error of the file that it lies in
(`Diagnostic.toError`). The line that it points at is looked up under the name of that file as
`FileSystem.sourceLine` does: a name with a null character has no lines here.
-/

namespace HdlLint

/-- A report of a parser. -/
structure Diagnostic where
  /-- The name of the cause. -/
  code : String
  /-- The report as it is shown. -/
  report : String
  isError : Bool := true
  place : Location
deriving DecidableEq, Repr

namespace Diagnostic

/-- The words that mark the kinds of errors. The first one that occurs decides. -/
def markers : List (String × ErrorKind) :=
  [("CouldNotOpenIncludeFile", .includeFile),
    ("could not find or open include file", .includeFile),
    ("ExpectedMacroArgs", .macroArguments),
    ("NotEnoughMacroArgs", .macroArguments),
    ("TooManyActualMacroArgs", .macroArguments),
    ("expected macro arguments", .macroArguments),
    ("not enough arguments provided to macro", .macroArguments),
    ("too many arguments provided to", .macroArguments),
    ("UnknownDirective", .macroName),
    ("unknown macro or compiler directive", .macroName)]

/-- The kind of the first marker in a text. -/
def markedKind? (text : String) : Option ErrorKind :=
  (markers.find? fun m => Text.occursIn m.1.toList text.toList).map (·.2)

/-- The kind of the error that a diagnostic reports. -/
def kind (d : Diagnostic) : ErrorKind :=
  match markedKind? d.code with
  | some kind => kind
  | none => (markedKind? d.report).getD .parse

/-- A number that is not zero. -/
def nonzero? (n : Int) : Option Int :=
  if n = 0 then none else some n

/-- What an error of a kind is about, by the line that it points at. -/
def detail (kind : ErrorKind) (path line : String) (column : Int) : String :=
  match kind with
  | .includeFile => (IncludeUse.name? line).getD path
  | .macroName | .macroArguments =>
    (MacroUse.nameAt? line ((nonzero? column).getD 1)).getD "?"
  | .parse | .file | .other _ => ""

/-- The error that a diagnostic of a kind reports, for a file that was given by a path. -/
def toError (fs : FileSystem) (path : Path) (d : Diagnostic) (kind : ErrorKind) : SourceError :=
  let span := Range.span path ⟨d.place, d.place⟩
  let line := nonzero? span.line
  let text := line.bind fun n => fs.sourceLine span.path n
  { kind := kind
    path := Path.ofString span.path
    line := line
    column := nonzero? span.column
    detail := detail kind span.path (text.getD "") span.column }

end Diagnostic

end HdlLint
