import HdlLint.Verilog.TokenStream.Basic

/-!
# Directives that set something

Directives about time scales, net types, keywords and lines. They are checked, and all but one
leave the lexemes of the file as they are: behind a `line` directive the lines are counted anew
(`renumber`).
-/

namespace HdlLint.Verilog.TokenStream

/-- The units of time, each a thousandth of the one before it. -/
def timeUnits : List String :=
  ["s", "ms", "us", "ns", "ps", "fs"]

/-- How much of a time is meant by its number and its unit, in femtoseconds; a time scale counts in
ones, tens or hundreds. -/
def femtoseconds? (number unit : List Char) : Option Nat :=
  let whole := number.takeWhile Lexer.isDigitPart
  let fraction := (number.drop (whole.length + 1)).filter (· ≠ '_')
  let count := ((whole.filter (· ≠ '_')).dropWhile (· = '0'))
  if [['1'], ['1', '0'], ['1', '0', '0']].contains count && fraction.all (· = '0') then
    (timeUnits.idxOf? (String.ofList unit)).map fun i => Nat.pow 10 (count.length - 1 + 3 * (5 - i))
  else none

/-- Takes a lexeme that stands on the line of the directive and passes a test. -/
def takeOnLine (what : String) (test : Lexeme → Bool) : Preprocessor (Option Lexeme) := do
  let l ← peek
  if l.onSameLine && test l then
    let l ← consume
    return some l
  else
    report (.expected what) (← get).last
    return none

/-- Takes a time such as `1ns`, whole or in two parts: its place and its length. -/
def takeTime : Preprocessor (Option (Location × Nat)) := do
  match ← takeOnLine "time" fun l => l.cls = .time || l.cls = .integer with
  | none => return none
  | some l =>
    let parts ←
      if l.cls = .time then
        pure (some (l.raw.toList.span fun c => Lexer.isDigitPart c || c == '.'))
      else do
        let unit ← peek
        if unit.onSameLine && unit.cls = .identifier && timeUnits.contains unit.raw then
          let unit ← consume
          pure (some (l.raw.toList, unit.raw.toList))
        else pure none
    match parts.bind fun (number, unit) => femtoseconds? number unit with
    | none =>
      report (.expected "time of one, ten or a hundred units") l.start
      return none
    | some time => return some (l.start, time)

/-- Reads a time scale: a unit, a slash and a precision, which is not larger than the unit. -/
def readTimescale : Preprocessor Unit := do
  let unit ← takeTime
  let _ ← takeOnLine "'/'" (·.isSymbol "/")
  let precision ← takeTime
  if let (some (_, unit), some (place, precision)) := (unit, precision) then
    if unit < precision then report (.unexpected "precision") place

/-- The names of net types. -/
def netTypes : List String :=
  ["wire", "uwire", "wand", "wor", "tri", "tri0", "tri1", "triand", "trior", "trireg", "supply0",
    "supply1"]

/-- Takes a word of the given ones. -/
def takeWord (what : String) (words : List String) : Preprocessor Unit := do
  let _ ← takeOnLine what fun l => words.contains l.raw

/-- The standards that fix a set of keywords. -/
def keywordVersions : List String :=
  ["1364-1995", "1364-2001-noconfig", "1364-2001", "1364-2005", "1800-2005", "1800-2009",
    "1800-2012", "1800-2017", "1800-2023"]

/-- Reads the start of a part that keeps to the keywords of a standard. -/
def readBeginKeywords : Preprocessor Unit := do
  if let some version ← takeOnLine "string" (·.cls = .string) then
    if keywordVersions.contains version.value then
      modify fun s => { s with keywordParts := s.keywordParts + 1 }
    else report (.unexpected "keyword version") version.start

/-- Reads the end of a part that keeps to the keywords of a standard. -/
def readEndKeywords (directive : Lexeme) : Preprocessor Unit := do
  let s ← get
  if s.keywordParts = 0 then report (.unexpected "end of keywords") directive.start
  else set { s with keywordParts := s.keywordParts - 1 }

/-- Reads a pragma, whose name stands on the line. -/
def readPragma (directive : Lexeme) : Preprocessor Unit := do
  let l ← peek
  if l.onSameLine && l.cls = .identifier then
    let _ ← takeLine (← remaining)
  else report (.expected "pragma name") directive.start

/-! ## Lines -/

/-- Counts the lines behind a line anew: the line after it gets the given number. Places in an
included file take the given name. -/
def renumberLocation (behind number : Int) (name : String) : Location → Location
  | .text included offset line column =>
    if behind < line then
      .text (included.map fun _ => name) offset (number + (line - behind) - 1) column
    else .text included offset line column
  | .expansion offset usage => .expansion offset (renumberLocation behind number name usage)

/-- Counts the lines of a lexeme anew. -/
def renumberLexeme (behind number : Int) (name : String) (l : Lexeme) : Lexeme :=
  let move := renumberLocation behind number name
  { l with start := move l.start, stop := move l.stop, faults := l.faults.map move }

/-- Counts the lines of the innermost file anew. -/
def renumber (behind number : Int) (name : String) : Preprocessor Unit :=
  modify fun s => { s with sources := match s.sources with
    | [] => []
    | source :: outer =>
      { source with lexemes := source.lexemes.map (renumberLexeme behind number name) } :: outer }

/-- Reads a number for the lines that follow, the name of their file and a level. -/
def readLine (directive : Lexeme) : Preprocessor Unit := do
  let number ← takeOnLine "integer" (·.cls = .integer)
  let name ← takeOnLine "string" (·.cls = .string)
  let level ← takeOnLine "integer" (·.cls = .integer)
  if let (some number, some name, some level) := (number, name, level) then
    if ["0", "1", "2"].contains level.raw then
      renumber directive.start.line (number.raw.toNat?.getD 0) name.value
    else report (.unexpected "level") level.start

/-- Reads the parts of any other directive. -/
def readOther (directive : Lexeme) : Preprocessor Unit := do
  match directive.value with
  | "timescale" => readTimescale
  | "default_nettype" => takeWord "net type" ("none" :: netTypes)
  | "unconnected_drive" => takeWord "pull strength" ["pull0", "pull1"]
  | "begin_keywords" => readBeginKeywords
  | "end_keywords" => readEndKeywords directive
  | "line" => readLine directive
  | "pragma" => readPragma directive
  | "default_decay_time" | "default_trireg_strength" =>
    let _ ← takeLine (← remaining)
  | _ => return

end HdlLint.Verilog.TokenStream
