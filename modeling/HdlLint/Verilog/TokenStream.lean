import HdlLint.Verilog.TokenStream.Conditional
import HdlLint.Verilog.TokenStream.Definition
import HdlLint.Verilog.TokenStream.Inclusion
import HdlLint.Verilog.TokenStream.Setting

/-!
# The lexemes of a source file after preprocessing

`TokenStream.ofText` reads the text of a file with the files it includes, follows the conditional
directives, and replaces the usages of macros by their texts. The directives that were followed
remain as trivia in front of the lexemes.
-/

namespace HdlLint.Verilog.TokenStream

/-- Reads a directive, which stays as trivia of the next lexeme. -/
def readDirective (directive : Lexeme) : Preprocessor Unit := do
  modify fun s => { s with last := directive.stop }
  let other : Directive := .other ⟨directive.value⟩
  let read : Directive ←
    match directive.value with
    | "define" => readDefine
    | "undef" =>
      match ← takeName with
      | none => pure other
      | some name =>
        if fixedNames.contains name.value then report (.unexpected "macro name") name.start
        modify fun s => { s with macros := s.macros.erase name.value }
        pure (.undef name.value)
    | "undefineall" =>
      modify fun s => { s with macros := OrderedTable.empty }
      pure .undefineAll
    | "ifdef" => do readIf directive false; pure other
    | "ifndef" => do readIf directive true; pure other
    | "elsif" => do readElse directive (some (← takeCondition)); pure other
    | "else" => do readElse directive none; pure other
    | "endif" => do readEndIf directive; pure other
    | "include" => do readInclude; pure other
    | name =>
      if directiveNames.contains name then do readOther directive; pure other
      else do readUsage directive; pure (.other Lexeme.macroUsageKind)
  modify fun s => { s with directives := s.directives ++ [.directive read] }

/-! ## Files -/

/-- Reads lexemes up to the end of the file, at most as many as there are steps. -/
def run : (steps : Nat) → Preprocessor Unit
  | 0 => return
  | steps + 1 => do
    let l ← next
    match l.cls with
    | .directive =>
      readDirective l
      run steps
    | .macroQuote | .macroEscapedQuote | .macroPaste | .lineContinuation =>
      report .badText l.start
      run steps
    | .unknown | .emptyText => run steps
    | _ =>
      if l.cls = .endOfFile then
        if let b :: _ := (← get).branches then
          report (.expected "end of conditional directive") b.directive
      modify fun s => { s with
        last := l.stop
        output := s.output.push { l with trivia := s.directives ++ l.trivia }
        directives := [] }
      if l.cls = .endOfFile then return else run steps

/-- How many steps are taken for a file, its included files and its macros. -/
def stepLimit : Nat := 1000000000

/-- The state at the start of a text. -/
def start (macros : OrderedTable Macro) (directory : List String) (text : List Char) : State :=
  { waiting := [], sources := [⟨Lexer.lexemes none text, directory⟩], macros := macros,
    branches := [], keywordParts := 0, last := .origin, directives := [], output := #[],
    faults := #[] }

/-- The text of a directive that makes a definition given on one line: the first equals sign is a
blank, and a definition without one gets the text `1`. -/
def predefineText (predefine : String) : List Char :=
  let (name, text) := predefine.toList.span (· ≠ '=')
  "\x60define ".toList ++ name ++ ' ' ::
    (match text with
    | [] => ['1']
    | _ :: text => text) ++ ['\n']

/-- Reads a definition given on one line: the macros that it defines, and its faults. -/
def predefine (surroundings : Surroundings) (directory : List String)
    (acc : OrderedTable Macro × Array (Nat × SourceFault)) (text : String) :
    OrderedTable Macro × Array (Nat × SourceFault) :=
  let ((), s) := ((run stepLimit).run surroundings).run
    (start OrderedTable.empty directory (predefineText text))
  (acc.1.update s.macros, acc.2 ++ s.faults.map fun f => (0, f.2))

/-- The lexemes of a text that lies in a directory, after definitions given on one line each. -/
def ofText (surroundings : Surroundings) (predefines : List String) (directory : List String)
    (text : List Char) : TokenStream :=
  let (macros, faults) :=
    predefines.foldl (predefine surroundings directory) (OrderedTable.empty, #[])
  let ((), s) := ((run stepLimit).run surroundings).run (start macros directory text)
  ⟨s.output, faults ++ s.faults⟩

end HdlLint.Verilog.TokenStream
