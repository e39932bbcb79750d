import HdlLint.Source
import HdlLint.Verilog.Grammar
import HdlLint.Verilog.TokenStream

/-!
# Reading SystemVerilog files

`Verilog.reader` is the parser of SystemVerilog files: the lexemes of a file after preprocessing,
read by the grammar. Faults are reported in the order in which they are met; reading ends with the
first fault of the grammar, and the lexemes that it did not look at have no faults before it.
-/

namespace HdlLint.Verilog

/-- The report of a fault in a file that was given by a path: where it is, its message, and the
line that it points at. -/
def report (fs : FileSystem) (path : Path) (fault : SourceFault) : String :=
  let span := Range.span path ⟨fault.place, fault.place⟩
  s!"{span.path}:{span.line}:{span.column}: error: {fault.cause.message}\n" ++
    (fs.sourceLine span.path span.line).getD "" ++ "\n"

/-- The diagnostic of a fault. -/
def diagnostic (fs : FileSystem) (path : Path) (fault : SourceFault) : Diagnostic :=
  { code := s!"DiagCode({fault.cause.code})"
    report := report fs path fault
    place := fault.place }

/-- Parses the text of a file that lies in a directory: the tree, and the faults as they are
met. -/
def parseText (surroundings : TokenStream.Surroundings) (predefines : List String)
    (directory : List String) (text : List Char) : Tree × List SourceFault :=
  let stream := TokenStream.ofText surroundings predefines directory text
  let faults := stream.faults.toList
  match Grammar.read stream.lexemes with
  | .ok tree => (tree, faults.map (·.2))
  | .error failure =>
    (.absent, ((faults.filter (·.1 < failure.seen)).map (·.2)) ++ failure.fault ::
      ((faults.filter fun f => !(f.1 < failure.seen)).map (·.2)))

/-- The parser of SystemVerilog files. -/
def reader (fs : FileSystem) : SourceParser := fun request =>
  match fs.read request.file, fs.place request.file with
  | .ok bytes, .ok place =>
    let (tree, faults) := parseText ⟨fs, request.includes⟩ request.predefines place.dropLast
      (Text.decodeLossy bytes)
    .ok (tree, faults.map (diagnostic fs request.file))
  | _, _ => .error (Fault.raise "RuntimeError" [.text "the file cannot be opened"])

end HdlLint.Verilog
