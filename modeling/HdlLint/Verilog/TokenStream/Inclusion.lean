import HdlLint.Verilog.TokenStream.Expansion

/-!
# Included files

The file that an include directive names, and the places at which it is looked for: the directory
of the file that includes it, then the include directories in order.
-/

namespace HdlLint.Verilog.TokenStream

/-- Takes the name of a file between angle brackets, as it is written. -/
def takeAngled : (count : Nat) → Preprocessor (Option (List Char))
  | 0 => return none
  | count + 1 => do
    let l ← peek
    if l.cls = .endOfFile || !l.onSameLine then return none
    let l ← consume
    if l.isSymbol ">" then return some (triviaText l.trivia)
    return (← takeAngled count).map (sourceText l ++ ·)

/-- The name of a file to include: whether it stands between angle brackets, its text, and its
place. A macro can stand for the name. -/
def takeFileName : (count : Nat) → Preprocessor (Option (Bool × String × Location))
  | 0 => return none
  | count + 1 => do
    let l ← peek
    if !l.onSameLine then return none
    if isUsage l then
      let usage ← consume
      readUsage usage
      takeFileName count
    else if l.cls = .string then
      let l ← consume
      return some (false, l.value, l.start)
    else if l.isSymbol "<" then
      let l ← consume
      return (← takeAngled (← remaining)).map fun name => (true, String.ofList name, l.start)
    else return none

/-- The places at which an included file is looked for. -/
def candidates (surroundings : Surroundings) (directory : List String) (angled : Bool)
    (name : Path) : List (List String) :=
  let fs := surroundings.fs
  let found (place : Except FileFault (List String)) : List (List String) :=
    match place with
    | .ok place => [place]
    | .error _ => []
  if name.isAbsolute then found (fs.place name)
  else if angled then []
  else
    found (fs.follow directory name.parts) ++
      surroundings.includes.flatMap fun dir =>
        match fs.place dir with
        | .ok place => found (fs.follow place name.parts)
        | .error _ => []

/-- The first of some places that holds a file, with its bytes. -/
def firstFile (fs : FileSystem) : List (List String) → Option (List String × List UInt8)
  | [] => none
  | place :: places =>
    match fs.at? place with
    | some (.file bytes) => some (place, bytes)
    | _ => firstFile fs places

/-- The name of a place as seen from a directory. -/
def relativeName : (directory place : List String) → String
  | d :: ds, p :: ps =>
    if d = p then relativeName ds ps
    else "/".intercalate ((d :: ds).map (fun _ => "..") ++ (p :: ps))
  | ds, ps => "/".intercalate (ds.map (fun _ => "..") ++ ps)

/-- Reads an included file: its lexemes come next. -/
def readInclude : Preprocessor Unit := do
  match ← takeFileName (← remaining) with
  | none => report (.expected "include file name") (← get).last
  | some (angled, name, start) =>
    if name = "" then
      report (.expected "include file name") start
      return
    let surroundings ← read
    let s ← get
    let directory := match s.sources with
      | source :: _ => source.directory
      | [] => surroundings.fs.current
    match firstFile surroundings.fs (candidates surroundings directory angled (.ofString name)) with
    | none => report (.includeNotFound name) start
    | some (place, bytes) =>
      if includeDepth ≤ s.sources.length then
        report .includeTooDeep start
      else
        let shown := relativeName surroundings.fs.current place
        set { s with sources :=
          ⟨Lexer.lexemes (some shown) (Text.decodeLossy bytes), place.dropLast⟩ :: s.sources }

end HdlLint.Verilog.TokenStream
