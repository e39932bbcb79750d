import HdlLint.Verilog.Grammar.Property

/-!
# Declarations

Data types and their dimensions, and what they declare: variables, nets, parameters, types and
ports.
-/

namespace HdlLint.Verilog.Parser

/-! ## Dimensions and types -/

/-- A dimension in brackets. -/
def dimension : Parser (Option Tree) := do
  if !(← atSymbol "[") then return none
  let opening ← take
  let inner ←
    if ← atSymbol "]" then pure .absent
    else if ← atSymbols ["*"] then take
    else do
      let first ← expression
      if ← atSymbols [":", "+:", "-:"] then
        let operator ← take
        let second ← expression
        pure (node "RangeDimensionSpecifier" [first, operator, second])
      else pure (node "RangeDimensionSpecifier" [first])
  let closing ← expectSymbol "]"
  return some (node "VariableDimension" [opening, inner, closing])

/-- The dimensions of a type or a name. -/
def dimensions : Parser Tree := do
  return list (← many dimension)

/-- The sign of a type. -/
def signing : Parser Tree :=
  optionalKeywords ["signed", "unsigned"]

/-- A name with scopes, parameters and members. -/
def typeName : Parser Tree := do
  let first ← if ← atClass .systemName then take else expectName
  rest (node "IdentifierName" [first]) (← itemLimit)
where
  /-- What follows the first name. -/
  rest (left : Tree) : Nat → Parser Tree
    | 0 => return left
    | count + 1 => do
      if ← atSymbol "#" then
        let parameters ← parameterAssignments
        rest (node "ClassName" [left, parameters]) count
      else if ← atSymbols ["::", "."] then
        let separator ← take
        let name ← expectName
        rest (node "ScopedName" [left, separator, node "IdentifierName" [name]]) count
      else return left

/-- One name with its dimensions and its value. -/
def declarator : Parser Tree := do
  let name ← expectName
  let dims ← dimensions
  if ← atSymbol "=" then
    let equals ← take
    let value ← expression
    return node "Declarator" [name, dims, node "EqualsValueClause" [equals, value]]
  else return node "Declarator" [name, dims, .absent]

/-- The names of a declaration. -/
def declarators : Parser Tree :=
  itemsOne ⟨",", fun l => l.cls = .identifier, endsDeclaration, "declarator"⟩ declarator

/-- A member of a structure. -/
def structMember : Parser (Option Tree) := do
  let l ← peek
  if l.isSymbol "\x7d" || endsDeclaration l then return none
  let attrs ← attributes
  let qualifier ← optionalKeywords ["rand", "randc"]
  let type ← parse (.dataType false)
  let names ← declarators
  let semi ← expectSymbol ";"
  return some (node "StructUnionMember" [attrs, qualifier, type, names, semi])

/-- A structure or a union. -/
def structType : Parser Tree := do
  let word ← take
  let qualifier ← optionalKeywords ["tagged", "soft"]
  let packed ← optionalKeyword "packed"
  let sign ← signing
  let opening ← expectSymbol "\x7b"
  let members ← many structMember
  let closing ← expectSymbol "\x7d"
  let dims ← dimensions
  return node "StructType" [word, qualifier, packed, sign, opening, list members, closing, dims]

/-- An enumeration. -/
def enumType : Parser Tree := do
  let word ← take
  let base ← if ← atSymbol "\x7b" then pure .absent else parse (.dataType true)
  let opening ← expectSymbol "\x7b"
  let names ← itemsOne ⟨",", fun l => l.cls = .identifier, endsBraces, "enumerator"⟩ declarator
  let closing ← expectSymbol "\x7d"
  let dims ← dimensions
  return node "EnumType" [word, base, opening, names, closing, dims]

/-- The kinds of the types whose words stand alone or with a sign and dimensions. -/
def typeKind? : String → Option String
  | "logic" => some "LogicType"
  | "bit" => some "BitType"
  | "reg" => some "RegType"
  | "byte" => some "ByteType"
  | "shortint" => some "ShortIntType"
  | "int" => some "IntType"
  | "longint" => some "LongIntType"
  | "integer" => some "IntegerType"
  | "time" => some "TimeType"
  | "real" => some "RealType"
  | "shortreal" => some "ShortRealType"
  | "realtime" => some "RealTimeType"
  | "string" => some "StringType"
  | "chandle" => some "CHandleType"
  | "event" => some "EventType"
  | _ => none

/-- A type without a word: a sign and dimensions. -/
def implicitType : Parser Tree := do
  let sign ← signing
  let dims ← dimensions
  return node "ImplicitType" [sign, dims, placeholder]

/-- Reads a data type. -/
def dataType (implicitAllowed : Bool) : Parser Tree := do
  let l ← peek
  if l.cls = .keyword then
    match l.raw with
    | "void" => return node "VoidType" [← take]
    | "struct" | "union" => structType
    | "enum" => enumType
    | "virtual" =>
      let word ← take
      let interface ← optionalKeyword "interface"
      let name ← typeName
      return node "VirtualInterfaceType" [word, interface, name]
    | "type" =>
      let word ← take
      let opening ← expectSymbol "("
      let inner ← expression
      let closing ← expectSymbol ")"
      return node "TypeReference" [word, opening, inner, closing]
    | raw =>
      match typeKind? raw with
      | some kind =>
        let word ← take
        let sign ← signing
        let dims ← dimensions
        return node kind [word, sign, dims]
      | none => if implicitAllowed then implicitType else missing "data type"
  else if l.cls = .identifier || l.cls = .systemName then
    if implicitAllowed && !(← atTypeAndName) then implicitType
    else
      let name ← typeName
      let dims ← dimensions
      return node "NamedType" [name, dims]
  else if implicitAllowed then implicitType
  else missing "data type"

/-! ## Declarations -/

/-- Words in front of a variable. -/
def variableWords : List String :=
  ["const", "var", "static", "automatic"]

/-- The words that start a declaration whatever follows. -/
def declarationWords : List String :=
  ["var", "automatic", "static", "const", "typedef", "parameter", "localparam", "let", "nettype",
    "chandle", "event", "struct", "union", "enum"]

/-- Whether a declaration of variables, types or parameters is next. -/
def atDeclaration : Parser Bool := do
  let l ← peek
  if l.cls = .keyword then
    if declarationWords.contains l.raw then return true
    else if l.raw == "virtual" then return !(← peekAt 1).isKeyword "class"
    else if l.raw == "void" then return false
    else if typeKeywords.contains l.raw then
      let next ← peekAt 1
      return !(next.isSymbol "'" || next.isSymbol "'\x7b")
    else if l.raw == "import" then return (← peekAt 1).cls ≠ .string
    else return false
  else atTypeAndName

/-- One value of a parameter that is a type. -/
def typeAssignment : Parser Tree := do
  let name ← expectName
  if ← atSymbol "=" then
    let equals ← take
    let type ← parse (.dataType false)
    return node "TypeAssignment" [name, node "EqualsTypeClause" [equals, type]]
  else return node "TypeAssignment" [name]

/-- A parameter with its word, for `names` that declare one or more of them. -/
def parameter (names : Parser Tree → Parser Tree) : Parser Tree := do
  let word ← optionalKeywords ["parameter", "localparam"]
  if ← atKeyword "type" then
    let type ← take
    let types ← names typeAssignment
    return node "TypeParameterDeclaration" [word, type, types]
  else
    let type ← parse (.dataType true)
    let values ← names declarator
    return node "ParameterDeclaration" [word, type, values]

/-- The parameters of a header. -/
def parameterPorts : Parser Tree := do
  if !(← atSymbol "#") then return .absent
  let hash ← take
  let opening ← expectSymbol "("
  let ports ← items
    ⟨",", fun l => l.cls = .identifier ||
        (l.cls = .keyword && (["parameter", "localparam"] ++ typeKeywords).contains l.raw) ||
        l.isSymbol "[",
      endsParentheses, "parameter"⟩
    (parameter fun p => do return separated [← p])
  let closing ← expectSymbol ")"
  return node "ParameterPortList" [hash, opening, ports, closing]

/-- An item of an import. -/
def importItem : Parser Tree := do
  let package ← if ← atClass .systemName then take else expectName
  let colons ← expectSymbol "::"
  let item ← if ← atSymbol "*" then take else expectName
  return node "PackageImportItem" [package, colons, item]

/-- An import of packages. -/
def packageImport (attrs : Tree) : Parser Tree := do
  let word ← take
  let imports ← itemsOne
    ⟨",", fun l => l.cls = .identifier, endsDeclaration, "import"⟩ importItem
  let semi ← expectSymbol ";"
  return node "PackageImportDeclaration" [attrs, word, imports, semi]

/-- A declaration of a type. -/
def typedefDeclaration (attrs : Tree) : Parser Tree := do
  let word ← take
  let next ← peekAt 1
  if (← atClass .identifier) && next.isSymbol ";" then
    let name ← take
    let semi ← take
    return node "ForwardTypedefDeclaration" [attrs, word, name, semi]
  else if (← atKeywords ["enum", "struct", "union"]) && next.cls = .identifier &&
      (← peekAt 2).isSymbol ";" then
    let kind ← take
    let name ← take
    let semi ← take
    return node "ForwardTypedefDeclaration" [attrs, word, kind, name, semi]
  else if ← atKeywords ["class", "interface"] then
    let kind ← take
    let kind' ← optionalKeyword "class"
    let name ← expectName
    let semi ← expectSymbol ";"
    return node "ForwardTypedefDeclaration" [attrs, word, kind, kind', name, semi]
  else
    let type ← parse (.dataType false)
    let name ← expectName
    let dims ← dimensions
    let semi ← expectSymbol ";"
    return node "TypedefDeclaration" [attrs, word, type, name, dims, semi]

/-- The direction, the words and the type of a port in parentheses. -/
def functionPort : Parser Tree := do
  if ← atSymbols [",", ")"] then return node "EmptyNonAnsiPort" [placeholder]
  let attrs ← attributes
  let constant ← optionalKeyword "const"
  let direction ← optionalKeywords directionKeywords
  let static ← optionalKeyword "static"
  let var ← optionalKeyword "var"
  let type ← parse (.dataType true)
  let name ← declarator
  return node "FunctionPort" [attrs, constant, direction, static, var, type, name]

/-- Whether a lexeme can start a port. -/
def startsPort (l : Lexeme) : Bool :=
  l.cls = .identifier || l.isSymbol "," || l.isSymbol "(" || l.isSymbol "(*" || l.isSymbol "[" || l.isSymbol "." ||
    (l.cls = .keyword &&
      (["var", "const", "static", "interface", "signed", "unsigned"] ++ directionKeywords ++
        typeKeywords ++ netKeywords).contains l.raw)

/-- The ports of a function or a task. -/
def functionPorts : Parser Tree := do
  if !(← atSymbol "(") then return .absent
  let opening ← take
  let ports ← items ⟨",", startsPort, endsParentheses, "port"⟩ functionPort
  let closing ← expectSymbol ")"
  return nodeWith "FunctionPortList" [("ports", 1)] [opening, ports, closing]

/-- A `let` declaration. -/
def letDeclaration (attrs : Tree) : Parser Tree := do
  let word ← take
  let name ← expectName
  let ports ← functionPorts
  let equals ← expectSymbol "="
  let value ← expression
  let semi ← expectSymbol ";"
  return node "LetDeclaration" [attrs, word, name, ports, equals, value, semi]

/-- A declaration of a user's net type. -/
def netTypeDeclaration (attrs : Tree) : Parser Tree := do
  let word ← take
  let type ← parse (.dataType false)
  let name ← expectName
  let function ←
    if ← atKeyword "with" then do
      let withWord ← take
      let name ← typeName
      pure (node "WithFunctionClause" [withWord, name])
    else pure .absent
  let semi ← expectSymbol ";"
  return node "NetTypeDeclaration" [attrs, word, type, name, function, semi]

/-- Reads a declaration of variables, types, parameters, imports or `let` constructs. -/
def declaration (attrs : Tree) : Parser Tree := do
  let l ← peek
  match if l.cls = .keyword then l.raw else "" with
  | "typedef" => typedefDeclaration attrs
  | "parameter" | "localparam" =>
    let inner ← parameter fun p =>
      itemsOne ⟨",", fun l => l.cls = .identifier, endsDeclaration, "declarator"⟩ p
    let semi ← expectSymbol ";"
    return node "ParameterDeclarationStatement" [attrs, inner, semi]
  | "let" => letDeclaration attrs
  | "import" => packageImport attrs
  | "nettype" => netTypeDeclaration attrs
  | _ =>
    let words ← manyWhile (atKeywords variableWords) take
    let type ← parse (.dataType (words.length ≠ 0))
    let names ← declarators
    let semi ← expectSymbol ";"
    return node "DataDeclaration" [attrs, node "TokenList" words, type, names, semi]

/-- The strength of a net, in parentheses. -/
def strength : Parser Tree := do
  let words := ["supply0", "strong0", "pull0", "weak0", "highz0", "supply1", "strong1", "pull1",
    "weak1", "highz1", "small", "medium", "large"]
  let inner ← peekAt 1
  if (← atSymbol "(") && inner.cls = .keyword && words.contains inner.raw then
    let opening ← take
    let first ← take
    let comma ← optionalSymbol ","
    let second ← optionalKeywords words
    let closing ← expectSymbol ")"
    return node "DriveStrength" [opening, first, comma, second, closing]
  else return .absent

/-- A declaration of nets. -/
def netDeclaration (attrs : Tree) : Parser Tree := do
  let word ← take
  let driven ← strength
  let expansion ← optionalKeywords ["vectored", "scalared"]
  let type ← parse (.dataType true)
  let wait ← if ← atSymbol "#" then transitionDelay else pure .absent
  let names ← declarators
  let semi ← expectSymbol ";"
  return node "NetDeclaration" [attrs, word, driven, expansion, type, wait, names, semi]

/-- The modport of an interface behind a point. -/
def memberClause : Parser Tree := do
  if ← atSymbol "." then
    let dot ← take
    let name ← expectName
    return node "DotMemberClause" [dot, name]
  else return .absent

/-- What stands in front of the name of a port: direction, words and type. -/
def portHeader : Parser Tree := do
  let constant ← optionalKeyword "const"
  let direction ← optionalKeywords directionKeywords
  let l ← peek
  if l.isKeyword "interface" then
    let word ← take
    let modport ← memberClause
    return node "InterfacePortHeader" [word, modport]
  else if l.cls = .keyword && netKeywords.contains l.raw then
    let net ← take
    let type ← parse (.dataType true)
    return node "NetPortHeader" [direction, net, type]
  else if l.cls = .identifier && (← peekAt 1).isSymbol "." && (← peekAt 2).cls = .identifier &&
      (← peekAt 3).cls = .identifier then
    let name ← take
    let modport ← memberClause
    return node "InterfacePortHeader" [name, modport]
  else
    let var ← optionalKeyword "var"
    let type ← parse (.dataType true)
    return node "VariablePortHeader" [constant, direction, var, type]

/-- Whether a declaration of ports is next. -/
def atPortDeclaration : Parser Bool := do
  return (← atKeywords directionKeywords) ||
    ((← atKeyword "const") && (← peekAt 1).isKeyword "ref")

/-- A declaration of ports in a body. -/
def portDeclaration (attrs : Tree) : Parser Tree := do
  let header ← portHeader
  let names ← declarators
  let semi ← expectSymbol ";"
  return nodeWith "PortDeclaration" [("header", 1)] [attrs, header, names, semi]

end HdlLint.Verilog.Parser
