import HdlLint.FileSystem
import HdlLint.OrderedTable
import HdlLint.Verilog.Lexer
import HdlLint.Verilog.SourceFault

/-!
# The state of preprocessing

Lexemes come from two places (`State`): those that wait (looked ahead, or text of a macro), and the
files, the innermost included one first. `Preprocessor` is the state monad over both. A fault
carries the number of lexemes that were read before it was met.
-/

namespace HdlLint.Verilog

/-- A formal argument of a macro. -/
structure Formal where
  name : String
  default : Option (List Lexeme)

/-- The definition of a macro. -/
structure Macro where
  name : String
  /-- The formal arguments, if the macro takes any. -/
  formals : Option (List Formal)
  body : List Lexeme

/-- A file that is being read. -/
structure Source where
  lexemes : List Lexeme
  /-- The place of the directory that holds the file. -/
  directory : List String

/-- A conditional directive whose end was not met yet. -/
structure Branch where
  directive : Location
  /-- Whether the current part is read. -/
  active : Bool
  /-- Whether any part so far was read. -/
  taken : Bool
  hasElse : Bool

/-- The lexemes of a file, and the faults met with the number of lexemes before each. -/
structure TokenStream where
  lexemes : Array Lexeme
  faults : Array (Nat × SourceFault)

namespace TokenStream

/-- What surrounds the files of a run. -/
structure Surroundings where
  fs : FileSystem
  includes : List Path

/-- The state of preprocessing. -/
structure State where
  /-- Lexemes that come before those of the files. -/
  waiting : List Lexeme
  sources : List Source
  macros : OrderedTable Macro
  branches : List Branch
  /-- How many parts that keep to the keywords of a standard are open. -/
  keywordParts : Nat
  /-- The end of the lexeme that was read last. -/
  last : Location
  /-- The directives since the last lexeme. -/
  directives : List Trivia
  output : Array Lexeme
  faults : Array (Nat × SourceFault)

/-- A step of preprocessing. -/
abbrev Preprocessor := ReaderT Surroundings (StateM State)

/-- How deeply usages of macros may be nested. -/
def expansionDepth : Nat := 1000

/-- How deeply files may be included. -/
def includeDepth : Nat := 1024

/-- The names of the directives. Any other name after a backtick is the usage of a macro. -/
def directiveNames : List String :=
  ["define", "undef", "undefineall", "ifdef", "ifndef", "elsif", "else", "endif", "include",
    "timescale", "default_nettype", "line", "pragma", "begin_keywords", "end_keywords",
    "unconnected_drive", "nounconnected_drive", "celldefine", "endcelldefine", "resetall",
    "default_decay_time", "default_trireg_strength", "delay_mode_distributed", "delay_mode_path",
    "delay_mode_unit", "delay_mode_zero", "protect", "endprotect", "protected", "endprotected"]

/-- The names of numbers that stand for the results of coverage calls. -/
def coverageNumbers : List (String × String) :=
  [("SV_COV_START", "0"), ("SV_COV_STOP", "1"), ("SV_COV_RESET", "2"), ("SV_COV_CHECK", "3"),
    ("SV_COV_MODULE", "10"), ("SV_COV_HIER", "11"), ("SV_COV_ASSERTION", "20"),
    ("SV_COV_FSM_STATE", "21"), ("SV_COV_STATEMENT", "22"), ("SV_COV_TOGGLE", "23"),
    ("SV_COV_OVERFLOW", "-2"), ("SV_COV_ERROR", "-1"), ("SV_COV_NOCOV", "0"), ("SV_COV_OK", "1"),
    ("SV_COV_PARTIAL", "2")]

/-- Names that are always defined: two that stand for their place, that of the file and that of
the line, and those of numbers. -/
def fixedNames : List String :=
  ["__FILE__", "__LINE__"] ++ coverageNumbers.map (·.1)

/-- Whether a lexeme is the usage of a macro. -/
def isUsage (l : Lexeme) : Bool :=
  l.cls = .directive && !directiveNames.contains l.value

/-- The text of trivia. -/
def triviaText (trivia : List Trivia) : List Char :=
  trivia.flatMap fun
    | .text _ raw => raw.toList
    | .directive _ => []

/-- The text of a lexeme with its trivia. -/
def sourceText (l : Lexeme) : List Char :=
  triviaText l.trivia ++ l.raw.toList

/-! ## Reading lexemes -/

/-- Reports a fault, as met while the next lexeme is read. -/
def report (cause : Cause) (place : Location) : Preprocessor Unit :=
  modify fun s => { s with faults := s.faults.push (s.output.size, ⟨cause, place⟩) }

/-- Takes a lexeme from the files. What stands before the end of an included file goes to the
lexeme after its directive. -/
def pull (trivia : List Trivia) (faults : List Location) : List Source → Lexeme × List Source
  | [] => ({ Lexeme.none with trivia := trivia, faults := faults }, [])
  | source :: outer =>
    match source.lexemes with
    | [] => pull trivia faults outer
    | l :: rest =>
      let l' := { l with trivia := trivia ++ l.trivia, faults := faults ++ l.faults }
      if l.cls ≠ .endOfFile then (l', { source with lexemes := rest } :: outer)
      else match outer with
        | [] => (l', [{ source with lexemes := [{ l with trivia := [], faults := [] }] }])
        | _ :: _ => pull l'.trivia l'.faults outer

/-- The next lexeme, directives among them. -/
def next : Preprocessor Lexeme := do
  let s ← get
  match s.waiting with
  | l :: rest =>
    set { s with waiting := rest }
    return l
  | [] =>
    let (l, sources) := pull [] [] s.sources
    set { s with sources := sources }
    for place in l.faults do report .badText place
    return { l with faults := [] }

/-- Puts lexemes in front of all others. -/
def putBack (ls : List Lexeme) : Preprocessor Unit :=
  modify fun s => { s with waiting := ls ++ s.waiting }

/-- The next lexeme, which stays. -/
def peek : Preprocessor Lexeme := do
  let l ← next
  putBack [l]
  return l

/-- Takes the next lexeme as a part of a directive. -/
def consume : Preprocessor Lexeme := do
  let l ← next
  modify fun s => { s with last := l.stop }
  return l

/-- How many lexemes can be read without opening a file or using a macro. -/
def remaining : Preprocessor Nat := do
  let s ← get
  return s.sources.foldl (fun count source => count + source.lexemes.length) (s.waiting.length + 1)

/-- Takes the name of a directive, which stands on its line; keywords are names too. -/
def takeName : Preprocessor (Option Lexeme) := do
  let l ← peek
  if (l.cls = .identifier || l.cls = .keyword) && l.onSameLine then
    let l ← consume
    return some l
  else
    report (.expected "identifier") (← get).last
    return none

/-- Takes what is left of the line. -/
def takeLine : Nat → Preprocessor (List Lexeme)
  | 0 => return []
  | count + 1 => do
    let l ← peek
    if l.cls = .endOfFile || !l.onSameLine then return []
    let l ← consume
    return l :: (← takeLine count)

/-- The first lexeme of a buffer, or the next one where the buffer is empty. -/
def peekFrom (buffer : List Lexeme) : Preprocessor Lexeme :=
  match buffer with
  | l :: _ => return l
  | [] => peek

/-- Takes the first lexeme of a buffer, or the next one where the buffer is empty. -/
def takeFrom (buffer : List Lexeme) : Preprocessor (Lexeme × List Lexeme) :=
  match buffer with
  | l :: rest => do
    modify fun s => { s with last := l.stop }
    return (l, rest)
  | [] => return (← consume, [])

end TokenStream

end HdlLint.Verilog
