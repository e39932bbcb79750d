import HdlLint.Verilog.TokenStream.Basic

/-!
# Conditional directives

Parts of a file that are read only where a macro is defined, or is not. The parts that are not
read are passed over up to the next conditional directive.
-/

namespace HdlLint.Verilog.TokenStream

/-- Passes over the lexemes of a part that is not read, up to the next conditional directive. -/
def skipPart : (count : Nat) → Preprocessor Unit
  | 0 => return
  | count + 1 => do
    let l ← next
    if l.cls = .endOfFile ||
        (l.cls = .directive && ["ifdef", "ifndef", "elsif", "else", "endif"].contains l.value)
    then putBack [l]
    else skipPart count

/-- Goes on behind a conditional directive. -/
def enterPart (active : Bool) : Preprocessor Unit := do
  if !active then skipPart (← remaining)

/-- Whether the name of a conditional directive is defined. -/
def takeCondition : Preprocessor Bool := do
  match ← takeName with
  | none => return false
  | some name => return fixedNames.contains name.value || (← get).macros.contains name.value

/-- Reads the start of a conditional part. -/
def readIf (directive : Lexeme) (inverted : Bool) : Preprocessor Unit := do
  let defined ← takeCondition
  let s ← get
  let parent := match s.branches with
    | [] => true
    | b :: _ => b.active
  let active := parent && (defined != inverted)
  set { s with branches := ⟨directive.start, active, active, false⟩ :: s.branches }
  enterPart active

/-- Reads the start of another part; `condition` is that of an `elsif`. -/
def readElse (directive : Lexeme) (condition : Option Bool) : Preprocessor Unit := do
  let s ← get
  match s.branches with
  | [] => report (.unexpected "conditional directive") directive.start
  | b :: outer =>
    if b.hasElse then
      report (.unexpected "conditional directive") directive.start
    else
      let parent := match outer with
        | [] => true
        | p :: _ => p.active
      let active := !b.taken && parent && condition.getD true
      set { s with branches :=
        { b with active := active, taken := b.taken || active, hasElse := condition.isNone } ::
          outer }
      enterPart active

/-- Reads the end of a conditional. -/
def readEndIf (directive : Lexeme) : Preprocessor Unit := do
  let s ← get
  match s.branches with
  | [] => report (.unexpected "conditional directive") directive.start
  | _ :: outer =>
    set { s with branches := outer }
    enterPart (match outer with
      | [] => true
      | p :: _ => p.active)

end HdlLint.Verilog.TokenStream
