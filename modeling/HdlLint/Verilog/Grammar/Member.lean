import HdlLint.Verilog.Grammar.Class
import HdlLint.Verilog.Grammar.Generate
import HdlLint.Verilog.Grammar.Instance
import HdlLint.Verilog.Grammar.Port

/-!
# Members of design elements

Design elements with their headers, the members in them, and whole files.
-/

namespace HdlLint.Verilog.Parser

/-! ## Design elements -/

/-- The name of a kind of design element, its last word and its scope. -/
def elementKind (word : String) : String × String × Scope :=
  match word with
  | "interface" => ("Interface", "endinterface", .interfaceBody)
  | "program" => ("Program", "endprogram", .programBody)
  | "package" => ("Package", "endpackage", .package)
  | _ => ("Module", "endmodule", .moduleBody)

/-- The header of a design element, with its name. -/
def elementHeader (kind : String) : Parser (Tree × Token) := do
  let word ← take
  let lifetime ← optionalKeywords ["static", "automatic"]
  let name ← expectName
  let imports ← many do
    if ← atKeyword "import" then return some (← packageImport (list [])) else return none
  let parameters ← parameterPorts
  let ports ← ports
  let semi ← expectSymbol ";"
  let token := match name with
    | .token t => t
    | _ => Lexeme.none.toToken
  return (nodeWith (kind ++ "Header") [("ports", 5)]
    [word, lifetime, name, list imports, parameters, ports, semi], token)

/-- A design element. -/
def element (attrs : Tree) : Parser Tree := do
  let (kind, stop, scope) := elementKind (← peek).raw
  let (header, name) ← elementHeader kind
  let inner ← members scope fun l => l.isKeyword stop
  let word ← expectKeyword stop
  let stopName ← blockName
  checkNames (some name) stopName
  return nodeWith (kind ++ "Declaration") [("header", 1)] [attrs, header, inner, word, stopName]

/-- A program without a name, whose members belong to what surrounds it. -/
def anonymousProgram (attrs : Tree) : Parser Tree := do
  let word ← take
  let semi ← take
  let inner ← members .programBody fun l => l.isKeyword "endprogram"
  let stop ← expectKeyword "endprogram"
  return node "AnonymousProgram" [attrs, word, semi, inner, stop]

/-! ## Members of design elements -/

/-- A list of names with an optional value, as genvars have it. -/
def genvarDeclaration (attrs : Tree) : Parser Tree := do
  let word ← take
  let names ← itemsOne ⟨",", fun l => l.cls = .identifier, endsDeclaration, "identifier"⟩ do
    return node "IdentifierName" [← expectName]
  let semi ← expectSymbol ";"
  return node "GenvarDeclaration" [attrs, word, names, semi]

/-- A concurrent or immediate assertion as a member. -/
def assertionMember (attrs : Tree) : Parser Tree := do
  let inner ← parse (.statement true)
  return node "ConcurrentAssertionMember" [attrs, inner]

/-- A member that starts with a keyword; none if no member does. -/
def keywordMember (attrs : Tree) (l : Lexeme) : Parser Tree := do
  let next ← peekAt 1
  match l.raw with
  | "generate" => generateRegion attrs
  | "begin" => parse .generateBlock
  | "specify" => unread "SpecifyBlock" attrs "endspecify"
  | "timeunit" | "timeprecision" => unreadLine "TimeUnitsDeclaration" attrs
  | "program" => if next.isSymbol ";" then anonymousProgram attrs else element attrs
  | "module" | "macromodule" | "package" => element attrs
  | "interface" =>
    if next.isKeyword "class" then
      let word ← take
      classDeclaration attrs word
    else element attrs
  | "extern" =>
    if next.cls = .keyword && ["module", "macromodule", "program", "interface"].contains next.raw
    then
      let word ← take
      let (kind, _, _) := elementKind (← peek).raw
      let (header, _) ← elementHeader kind
      return node "ExternModuleDecl" [attrs, word, header]
    else unreadLine "ExternInterfaceMethod" attrs
  | "modport" => unreadLine "ModportDeclaration" attrs
  | "specparam" => unreadLine "SpecparamDeclaration" attrs
  | "bind" => unreadLine "BindDirective" attrs
  | "alias" => unreadLine "NetAlias" attrs
  | "assign" => continuousAssign attrs
  | "for" => loopGenerate attrs
  | "if" => ifGenerate attrs
  | "case" => caseGenerate attrs
  | "genvar" => genvarDeclaration attrs
  | "task" | "function" => routine attrs
  | "covergroup" => unread "CovergroupDeclaration" attrs "endgroup"
  | "class" => classDeclaration attrs .absent
  | "virtual" =>
    let word ← take
    classDeclaration attrs word
  | "defparam" => unreadLine "DefParam" attrs
  | "import" => unreadLine "DPIImport" attrs
  | "export" => unreadLine "DPIExport" attrs
  | "property" => unread "PropertyDeclaration" attrs "endproperty"
  | "sequence" => unread "SequenceDeclaration" attrs "endsequence"
  | "checker" => unread "CheckerDeclaration" attrs "endchecker"
  | "primitive" => unread "UdpDeclaration" attrs "endprimitive"
  | "config" => unread "ConfigDeclaration" attrs "endconfig"
  | "clocking" => unread "ClockingDeclaration" attrs "endclocking"
  | "default" =>
    if next.isKeyword "clocking" && !(← peekAt 3).isSymbol ";" then
      unread "ClockingDeclaration" attrs "endclocking"
    else unreadLine "DefaultDisableDeclaration" attrs
  | "global" => unread "ClockingDeclaration" attrs "endclocking"
  | "assert" | "assume" | "cover" | "restrict" => assertionMember attrs
  | "constraint" => constraintDeclaration [attrs]
  | "static" => unreadLine "ConstraintDeclaration" attrs
  | raw =>
    match procedureKind? raw with
    | some kind => procedure kind attrs
    | none => if gateWords.contains raw then gates attrs else return .absent

/-- Reads a member of a design element. -/
def member : Parser Tree := do
  let attrs ← attributes
  let l ← peek
  if ← atInstances then instantiation attrs
  else if ← atPortDeclaration then portDeclaration attrs
  else if l.cls = .keyword && netKeywords.contains l.raw then netDeclaration attrs
  else if ← atDeclaration then declaration attrs
  else match l.cls with
  | .keyword => keywordMember attrs l
  | .symbol =>
    if l.isSymbol ";" then return node "EmptyMember" [attrs, node "TokenList" [], ← take]
    else return .absent
  | .systemName =>
    let name ← take
    let arguments ← if ← atSymbol "(" then argumentList else pure .absent
    let semi ← expectSymbol ";"
    return node "ElabSystemTask" [attrs, name, arguments, semi]
  | .identifier =>
    let next ← peekAt 1
    let word ← peekAt 2
    if next.isSymbol ":" && word.isKeyword "begin" then parse .generateBlock
    else if next.isSymbol ":" && word.cls = .keyword &&
        ["assert", "assume", "cover", "restrict"].contains word.raw then assertionMember attrs
    else declaration attrs
  | _ => return .absent

/-! ## Files -/

/-- Reads a file. -/
def compilationUnit : Parser Tree := do
  let inner ← members .compilationUnit fun _ => false
  let stop ← take
  return node "CompilationUnit" [inner, stop]

end HdlLint.Verilog.Parser
