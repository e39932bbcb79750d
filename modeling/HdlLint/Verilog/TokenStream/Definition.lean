import HdlLint.Verilog.TokenStream.Argument

/-!
# Definitions of macros

A definition names a macro, perhaps with formal arguments, and gives its text, which goes to the
end of the line or beyond it behind a backslash (`readDefine`).
-/

namespace HdlLint.Verilog.TokenStream

/-- Takes a formal argument with its default. -/
def takeFormal : Preprocessor (Option (Formal × List Lexeme)) := do
  let l ← peek
  if l.cls ≠ .identifier && l.cls ≠ .keyword then
    report (.expected "identifier") (← get).last
    return none
  let name ← consume
  if (← peek).isSymbol "=" then
    let equals ← consume
    let (default, _) ← takeArgument (← remaining) [] []
    return some (⟨name.value, some default⟩, name :: equals :: default)
  else
    return some (⟨name.value, none⟩, [name])

/-- Takes formal arguments that are separated by commas, each with its lexemes. -/
def takeFormals : (count : Nat) → Preprocessor (List (Formal × List Lexeme))
  | 0 => return []
  | count + 1 => do
    match ← takeFormal with
    | none => return []
    | some formal =>
      if (← peek).isSymbol "," then
        let _ ← consume
        return formal :: (← takeFormals count)
      else
        return [formal]

/-- Takes the text of a definition: what is left of the line, and of the lines after a
backslash. -/
def takeBody : (count : Nat) → (continued : Bool) → Preprocessor (List Lexeme)
  | 0, _ => return []
  | count + 1, continued => do
    let l ← peek
    if l.cls = .endOfFile || (!l.onSameLine && !continued) then return []
    let l ← consume
    return l :: (← takeBody count (l.cls = .lineContinuation))

/-- A token of the text of a macro. -/
def bodyToken (l : Lexeme) : BodyToken :=
  ⟨[String.ofList (triviaText l.trivia)], l.raw⟩

/-- Reads a definition. -/
def readDefine : Preprocessor Directive := do
  match ← takeName with
  | none =>
    let body ← takeBody (← remaining) false
    return .define "" [] (body.map bodyToken)
  | some name =>
    if (directiveNames ++ fixedNames).contains name.value then
      report (.unexpected "macro name") name.start
    let l ← peek
    let formals ←
      if l.isSymbol "(" && l.trivia.isEmpty then do
        let _ ← consume
        let formals ← takeFormals (← remaining)
        if (← peek).isSymbol ")" then
          let _ ← consume
        else
          report (.expected "')'") (← get).last
        pure (some formals)
      else pure none
    let body ← takeBody (← remaining) false
    modify fun s => { s with
      macros := s.macros.insert name.value
        ⟨name.value, formals.map fun fs => fs.map (·.1), body⟩ }
    return .define name.value
      ((formals.getD []).map fun f => String.ofList (f.2.flatMap sourceText))
      (body.map bodyToken)

end HdlLint.Verilog.TokenStream
