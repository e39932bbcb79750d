import HdlLint.Verilog.TokenStream.Argument

/-!
# Expansion of macros

The text that takes the place of a usage: the text of the macro with its arguments in place
(`expandMacro`), the usages in it expanded in turn (`expandAll`), lexemes joined and texts built
(`followMarks`). All lexemes of an expansion carry the place of the usage.
-/

namespace HdlLint.Verilog.TokenStream

/-! ## Texts of macros -/

/-- Moves a lexeme of the text of a macro to the place of a usage. Offsets count from the first
lexeme of the text. -/
def moveTo (usage : Location) (origin : Int) (l : Lexeme) : Lexeme :=
  { l with
    start := .expansion (l.start.offset - origin) usage
    stop := .expansion (l.stop.offset - origin) usage }

/-- A backslash at the end of a line of a macro's text is a line end in front of what follows. -/
def dropContinuation (l : Lexeme) : Lexeme :=
  if l.cls = .lineContinuation then
    { l with cls := .emptyText, raw := "",
             trivia := l.trivia ++ [.text .lineEnd (String.ofList (l.raw.toList.drop 1))] }
  else l

/-- The lexemes of an expansion; the first one takes the trivia of the usage. -/
def withTrivia (trivia : List Trivia) : List Lexeme → List Lexeme
  | [] => []
  | l :: ls => { l with trivia := trivia } :: ls

/-- The actual arguments of formal ones. An empty argument or a missing last one takes the
default; there is none where an argument without default is missing. -/
def bindFormals : List Formal → List (List Lexeme) → Option (List (String × List Lexeme))
  | [], _ => some []
  | f :: fs, actual :: actuals =>
    let value := if actual.isEmpty then f.default.getD [] else actual
    (bindFormals fs actuals).map ((f.name, value) :: ·)
  | f :: fs, [] =>
    match f.default with
    | some value => (bindFormals fs []).map ((f.name, value) :: ·)
    | none => none

/-- The value of a formal argument. -/
def actual? (name : String) (bound : List (String × List Lexeme)) : Option (List Lexeme) :=
  (bound.find? (·.1 == name)).map (·.2)

/-- A lexeme of a macro's text that may name a formal argument. -/
def canName (l : Lexeme) : Bool :=
  l.cls = .identifier || l.cls = .keyword || isUsage l

/-- Replaces the formal arguments in the text of a macro. `origin` is the offset at which the text
starts, `usage` the place that the expansion stems from. The first lexeme of an argument takes
the trivia of the formal one. -/
def substitute (usage : Location) (origin : Int) (bound : List (String × List Lexeme)) :
    List Lexeme → List Lexeme
  | [] => []
  | l :: ls =>
    let here := moveTo usage origin l
    let replaced :=
      match if canName l then actual? l.value bound else none with
      | none => [dropContinuation here]
      | some [] => [{ here with cls := .emptyText, raw := "" }]
      | some (first :: rest) =>
        withTrivia l.trivia ((first :: rest).map (moveTo here.start first.start.offset))
    replaced ++ substitute usage origin bound ls

/-- The text of a name that is always defined. -/
def fixedText (usage : Lexeme) : Option Lexeme :=
  if usage.value == "__LINE__" then
    some { usage with cls := .integer, raw := toString usage.start.line, faults := [] }
  else if usage.value == "__FILE__" then
    some { usage with
      cls := .string, raw := Text.quote (usage.start.included?.getD ""), faults := [] }
  else (coverageNumbers.lookup usage.value).map fun number =>
    { usage with cls := .integer, raw := number, value := number, faults := [] }

/-- The macro that a usage names. -/
def macro? (usage : Lexeme) : Preprocessor (Option Macro) := do
  return (← get).macros.get? usage.value

/-- Expands the arguments of a usage; there are none where one of them cannot be expanded. -/
def expandBound (expand : List Lexeme → Preprocessor (Option (List Lexeme))) :
    List (String × List Lexeme) → Preprocessor (Option (List (String × List Lexeme)))
  | [] => return some []
  | (name, value) :: bound => do
    match ← expand value with
    | none => return none
    | some value =>
      match ← expandBound expand bound with
      | none => return none
      | some bound => return some ((name, value) :: bound)

/-- The text of a macro at a usage, with its arguments in place. The usages in the text are not
expanded yet. -/
def expandMacro (expand : List Lexeme → Preprocessor (Option (List Lexeme))) (m : Macro)
    (usage : Location) (actuals : Option Actuals) : Preprocessor (Option (List Lexeme)) := do
  let origin := match m.body with
    | l :: _ => l.start.offset
    | [] => 0
  match m.formals, actuals with
  | some formals, some actuals =>
    if formals.length < actuals.arguments.length then
      report .tooManyArguments actuals.opening
      return none
    match bindFormals formals actuals.arguments with
    | none =>
      report .tooFewArguments actuals.closing
      return none
    | some bound =>
      match ← expandBound expand bound with
      | none => return none
      | some bound => return some (substitute usage origin bound m.body)
  | _, _ => return some (substitute usage origin [] m.body)

/-- Expands the usages in a list of lexemes. `deeper` expands the texts of macros, `inside` names
the macros whose texts are being expanded. A usage of an unknown macro stays. -/
def expandUsages (deeper : List String → List Lexeme → Preprocessor (Option (List Lexeme)))
    (inside : List String) : (count : Nat) → List Lexeme → Preprocessor (Option (List Lexeme))
  | 0, _ => return some []
  | _, [] => return some []
  | count + 1, l :: ls => do
    if !isUsage l then
      return (← expandUsages deeper inside count ls).map (l :: ·)
    else if let some text := fixedText l then
      return (← expandUsages deeper inside count ls).map (text :: ·)
    else match ← macro? l with
    | none => return (← expandUsages deeper inside count ls).map (l :: ·)
    | some m =>
      if inside.contains m.name then
        report (.recursiveMacro m.name) l.start
        return none
      let (actuals, ls) ← if m.formals.isSome then takeActuals l ls else pure (none, ls)
      if m.formals.isSome && actuals.isNone then return none
      match ← expandMacro (deeper []) m l.start actuals with
      | none => return none
      | some text =>
        match ← deeper (m.name :: inside) (withTrivia l.trivia text) with
        | none => return none
        | some text => return (← expandUsages deeper inside count ls).map (text ++ ·)

/-- Expands the usages in a list of lexemes, down to a depth. -/
def expandAll : (depth : Nat) → List String → List Lexeme → Preprocessor (Option (List Lexeme))
  | 0, _, ls => return some ls
  | depth + 1, inside, ls => expandUsages (expandAll depth) inside (ls.length + 1) ls

/-! ## Joining and quoting -/

/-- Joins two lexemes to one, if their texts make one. -/
def join? (l r : Lexeme) : Option Lexeme :=
  let text := l.raw.toList ++ r.raw.toList
  let w := Lexer.word text
  if w.length = text.length ∧ w.faults = [] then
    some { l with
      cls := w.cls, raw := String.ofList text, value := String.ofList w.value, stop := r.stop }
  else none

/-- A text that a macro builds: the place of its opening quote and what it holds so far. -/
structure QuotedText where
  opening : Lexeme
  text : List Char

/-- Follows the marks that join lexemes and build texts. What was done so far stands in `done`,
the last lexeme first. -/
def followMarks (done : List Lexeme) (quoted : Option QuotedText) : List Lexeme → List Lexeme
  | [] => done.reverse
  | l :: ls =>
    match quoted with
    | some q =>
      let between := if q.text = [] then [] else triviaText l.trivia
      match l.cls with
      | .macroQuote =>
        let text := q.text ++ triviaText l.trivia
        followMarks ({ q.opening with
          cls := .string
          raw := String.ofList (['"'] ++ text ++ ['"'])
          value := String.ofList text
          stop := l.stop } :: done) none ls
      | .macroEscapedQuote =>
        followMarks done (some { q with text := q.text ++ between ++ ['\\', '"'] }) ls
      | .macroPaste => followMarks done quoted ls
      | _ => followMarks done (some { q with text := q.text ++ between ++ l.raw.toList }) ls
    | none =>
      match l.cls with
      | .macroQuote => followMarks done (some ⟨l, []⟩) ls
      | .macroPaste =>
        match ls with
        | [] => followMarks done none []
        | right :: ls' =>
          match if l.trivia.isEmpty && right.trivia.isEmpty then done else [] with
          | [] => followMarks done none (right :: ls')
          | left :: done' =>
            match join? left right with
            | some joined => followMarks (joined :: done') none ls'
            | none => followMarks (right :: left :: done') none ls'
      | .emptyText =>
        match ls with
        | [] => followMarks done none []
        | r :: ls' => followMarks done none ({ r with trivia := l.trivia ++ r.trivia } :: ls')
      | _ => followMarks (l :: done) none ls
termination_by ls => ls.length

/-! ## Usages -/

/-- Reads the usage of a macro: its text waits to be read. -/
def readUsage (usage : Lexeme) : Preprocessor Unit := do
  if let some text := fixedText usage then
    putBack [{ text with trivia := [] }]
    return
  match ← macro? usage with
  | none =>
    report (.unknownMacro usage.value) usage.start
    if (← peek).isSymbol "(" then
      let _ ← takeActuals usage []
  | some m =>
    let (actuals, _) ← if m.formals.isSome then takeActuals usage [] else pure (none, [])
    if m.formals.isSome && actuals.isNone then return
    match ← expandMacro (expandAll expansionDepth []) m usage.start actuals with
    | none => return
    | some text =>
      match ← expandAll expansionDepth [m.name] (withTrivia [] text) with
      | none => return
      | some text => putBack (followMarks [] none text)

end HdlLint.Verilog.TokenStream
