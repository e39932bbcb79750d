import HdlLint.Verilog.Grammar.Statement

/-!
# Members of a scope

A design element, a package and a generate block are scopes: they hold members, each scope those of
some kinds only (`members`). Constructs whose inner text means nothing to the linter are taken as
they are (`unread`).
-/

namespace HdlLint.Verilog.Parser

/-- The kinds of members that a scope does not admit. -/
def refusedKinds : Scope → List String
  | .compilationUnit =>
    ["ContinuousAssign", "InitialBlock", "FinalBlock", "AlwaysBlock", "AlwaysCombBlock",
      "AlwaysFFBlock", "AlwaysLatchBlock", "GenerateRegion", "IfGenerate", "CaseGenerate",
      "LoopGenerate", "GenerateBlock", "HierarchyInstantiation", "PrimitiveInstantiation",
      "PortDeclaration", "DefParam", "ModportDeclaration", "GenvarDeclaration", "NetAlias",
      "SpecifyBlock", "ConcurrentAssertionMember", "ClockingDeclaration"]
  | .package =>
    ["ContinuousAssign", "InitialBlock", "FinalBlock", "AlwaysBlock", "AlwaysCombBlock",
      "AlwaysFFBlock", "AlwaysLatchBlock", "GenerateRegion", "IfGenerate", "CaseGenerate",
      "LoopGenerate", "GenerateBlock", "HierarchyInstantiation", "PrimitiveInstantiation",
      "PortDeclaration", "DefParam", "ModportDeclaration", "GenvarDeclaration", "NetAlias",
      "SpecifyBlock", "ConcurrentAssertionMember", "ClockingDeclaration", "ModuleDeclaration",
      "InterfaceDeclaration", "ProgramDeclaration", "PackageDeclaration", "BindDirective"]
  | .moduleBody => ["PackageDeclaration", "ModportDeclaration", "UdpDeclaration"]
  | .interfaceBody =>
    ["PackageDeclaration", "ModuleDeclaration", "UdpDeclaration", "PrimitiveInstantiation",
      "SpecifyBlock"]
  | .programBody =>
    ["AlwaysBlock", "AlwaysCombBlock", "AlwaysFFBlock", "AlwaysLatchBlock", "PackageDeclaration",
      "ModuleDeclaration", "InterfaceDeclaration", "ProgramDeclaration", "UdpDeclaration",
      "HierarchyInstantiation", "PrimitiveInstantiation", "ModportDeclaration", "SpecifyBlock"]
  | .generate => ["PackageDeclaration", "PortDeclaration", "SpecifyBlock", "ModportDeclaration"]

/-- Fails at a member that its scope does not admit. -/
def checkAllowed (scope : Scope) (member : Tree) : Parser Unit := do
  if let some kind := member.nodeKind? then
    if (refusedKinds scope).contains kind.name then
      fail (.unexpected "member") member.range.start

/-- The members of a scope up to a word that ends it. -/
def members (scope : Scope) (stop : Lexeme → Bool) : Parser Tree := do
  return list (← many do
    let l ← peek
    if l.cls = .endOfFile || stop l then return none
    if isCloser l then misplaced (.unexpected "end")
    let member ← parse (.member scope)
    if !member.isPresent then fail (.expected "member") l.start
    checkAllowed scope member
    return some member)

/-- Takes all up to a word that ends a construct, as it is. -/
def unread (kind : String) (attrs : Tree) (stop : String) : Parser Tree := do
  let inner ← manyWhile (do
    let l ← peek
    return !(l.cls = .endOfFile || l.isKeyword stop)) take
  let word ← expectKeyword stop
  let name ← blockName
  return node kind [attrs, list inner, word, name]

/-- Takes all up to a semicolon, as it is. -/
def unreadLine (kind : String) (attrs : Tree) : Parser Tree := do
  let inner ← manyWhile (do
    let l ← peek
    return !(l.cls = .endOfFile || l.isSymbol ";")) take
  let semi ← expectSymbol ";"
  return node kind [attrs, list inner, semi]

end HdlLint.Verilog.Parser
