import HdlLint.Verilog.Lexeme
import HdlLint.Verilog.NumberBase
import HdlLint.Verilog.SourceFault

/-!
# Reading a grammar

A `Cursor` is a place among the lexemes of a file, a `Parser` a computation that moves it and may
fail with a fault. Parsers know each other by their goals (`Goal`): a parser runs another one by
`parse`, so each rule of the grammar is a definition on its own, and only one function, which
reads a goal down to a depth, is recursive.

A missing part of the grammar shows behind the lexeme that was read last (`expectSymbol`), a
missing item of a list at the lexeme that stands in its place, if that is on the same line
(`missingItem`).
-/

namespace HdlLint.Verilog

/-- What surrounds a member: it decides which members are allowed. -/
inductive Scope
  | compilationUnit
  | package
  | moduleBody
  | interfaceBody
  | programBody
  | generate
deriving DecidableEq, Repr

/-- What is to be read. -/
inductive Goal
  /-- An expression whose operators bind at least as tightly as a level. -/
  | expression (level : Nat)
  /-- An expression without binary operators. -/
  | operand
  /-- An expression that may be an assignment which does not block. -/
  | assignment
  /-- What is assigned. -/
  | value
  | property
  | pattern
  | statement (emptyAllowed : Bool)
  | blockItem
  | member (scope : Scope)
  | generateBlock
  | dataType (implicitAllowed : Bool)
  | constraintItem
  | classMember

/-- A place among the lexemes of a file. -/
structure Cursor where
  lexemes : Array Lexeme
  position : Nat
  /-- How many lexemes were looked at. -/
  seen : Nat

/-- A fault, and how many lexemes had been looked at when it was met. -/
structure Failure where
  fault : SourceFault
  seen : Nat

/-- A computation on a cursor that reads goals. -/
abbrev Parser :=
  ReaderT (Goal → Cursor → Except Failure (Tree × Cursor)) (StateT Cursor (Except Failure))

namespace Parser

instance {α : Type} : Inhabited (Parser α) :=
  ⟨fun _ c => .error ⟨⟨.nestedTooDeep, .origin⟩, c.seen⟩⟩

/-- Reads a goal. -/
def parse (goal : Goal) : Parser Tree := do
  let run ← read
  match run goal (← get) with
  | .ok (t, c) =>
    set c
    return t
  | .error e => throw e

/-- The lexeme at a distance; behind the last one stands the end of the file. -/
def peekAt (distance : Nat) : Parser Lexeme := do
  let c ← get
  let at_ := min (c.position + distance) (c.lexemes.size - 1)
  set { c with seen := max c.seen (at_ + 1) }
  return c.lexemes.getD at_ Lexeme.none

/-- The next lexeme. -/
def peek : Parser Lexeme :=
  peekAt 0

/-- The end of the lexeme that was read last, or the start of the first one. -/
def lastEnd : Parser Location := do
  let c ← get
  match c.position with
  | 0 => return (c.lexemes.getD 0 Lexeme.none).start
  | n + 1 => return (c.lexemes.getD n Lexeme.none).stop

/-- Fails at a place. -/
def fail {α : Type} (cause : Cause) (place : Location) : Parser α := do
  throw ⟨⟨cause, place⟩, (← get).seen⟩

/-- Fails behind the lexeme that was read last. -/
def missing {α : Type} (what : String) : Parser α := do
  let _ ← peek
  fail (.expected what) (← lastEnd)

/-- Fails at the next lexeme. -/
def misplaced {α : Type} (cause : Cause) : Parser α := do
  fail cause (← peek).start

/-- Fails where an item of a list is missing: at the next lexeme, or behind the last one if the
next is on another line. -/
def missingItem {α : Type} (what : String) : Parser α := do
  let l ← peek
  if l.onSameLine then fail (.expected what) l.start else missing what

/-- Takes the next lexeme. -/
def take : Parser Tree := do
  let l ← peek
  modify fun c => { c with position := min (c.position + 1) (c.lexemes.size - 1) }
  return .token l.toToken

/-- Whether the next lexeme is a symbol. -/
def atSymbol (raw : String) : Parser Bool := do
  return (← peek).isSymbol raw

/-- Whether the next lexeme is a keyword. -/
def atKeyword (raw : String) : Parser Bool := do
  return (← peek).isKeyword raw

/-- Whether the next lexeme is one of some keywords. -/
def atKeywords (raws : List String) : Parser Bool := do
  let l ← peek
  return l.cls = .keyword && raws.contains l.raw

/-- Whether the next lexeme is one of some symbols. -/
def atSymbols (raws : List String) : Parser Bool := do
  let l ← peek
  return l.cls = .symbol && raws.contains l.raw

/-- Whether the next lexeme is of a class. -/
def atClass (cls : LexemeClass) : Parser Bool := do
  return (← peek).cls = cls

/-- Takes a symbol. -/
def expectSymbol (raw : String) : Parser Tree := do
  if ← atSymbol raw then take else missing raw

/-- Takes a keyword. -/
def expectKeyword (raw : String) : Parser Tree := do
  if ← atKeyword raw then take else missing raw

/-- Takes a name. -/
def expectName : Parser Tree := do
  if ← atClass .identifier then take else missing "identifier"

/-- Takes a symbol if it is next. -/
def optionalSymbol (raw : String) : Parser Tree := do
  if ← atSymbol raw then take else return .absent

/-- Takes a keyword if it is next. -/
def optionalKeyword (raw : String) : Parser Tree := do
  if ← atKeyword raw then take else return .absent

/-- Takes one of some keywords if it is next. -/
def optionalKeywords (raws : List String) : Parser Tree := do
  if ← atKeywords raws then take else return .absent

/-- A bound for the number of items from the cursor on. -/
def itemLimit : Parser Nat := do
  let c ← get
  return c.lexemes.size - c.position + 1

/-- Runs a parser while it gives trees, at most a number of times. -/
def repeatUpTo (p : Parser (Option Tree)) : Nat → Parser (List Tree)
  | 0 => return []
  | count + 1 => do
    match ← p with
    | none => return []
    | some t => return t :: (← repeatUpTo p count)

/-- Runs a parser while it gives trees. -/
def many (p : Parser (Option Tree)) : Parser (List Tree) := do
  repeatUpTo p (← itemLimit)

/-- Runs a parser while a condition holds. -/
def manyWhile (condition : Parser Bool) (p : Parser Tree) : Parser (List Tree) :=
  many do if ← condition then return some (← p) else return none

/-- Runs a parser, or none of it if it fails. -/
def attempt (p : Parser Tree) : Parser (Option Tree) :=
  fun run c =>
    match p run c with
    | .ok (t, c') => .ok (some t, c')
    | .error _ => .ok (none, c)

/-! ## Trees -/

mutual

/-- Whether a tree has a token. -/
def hasToken : Tree → Bool
  | .node _ children => anyToken children
  | .token _ => true
  | .absent => false

/-- Whether one of some trees has a token. -/
def anyToken : List Tree → Bool
  | [] => false
  | t :: ts => hasToken t || anyToken ts

end

/-- The range from the first token of some trees to the last one. -/
def rangeOf (children : List Tree) : Range :=
  match children.find? hasToken, children.reverse.find? hasToken with
  | some first, some last => ⟨first.range.start, last.range.stop⟩
  | _, _ => .origin

/-- A node with named children. -/
def nodeWith (kind : String) (fields : List (String × Nat)) (children : List Tree) : Tree :=
  .node ⟨⟨kind⟩, rangeOf children, fields⟩ children

/-- A node. -/
def node (kind : String) (children : List Tree) : Tree :=
  nodeWith kind [] children

/-- A list of trees. -/
def list (items : List Tree) : Tree :=
  node "SyntaxList" items

/-- A list of trees with separators. -/
def separated (items : List Tree) : Tree :=
  node "SeparatedList" items

/-- A token without text. -/
def placeholder : Tree :=
  .absent

/-! ## Lists -/

/-- What a list of items is made of. -/
structure ListShape where
  separator : String
  /-- Whether a lexeme can start an item. -/
  starts : Lexeme → Bool
  /-- Whether a lexeme ends the list. -/
  ends : Lexeme → Bool
  /-- The name of an item in a message. -/
  what : String

/-- Reads the items of a list behind the first one. -/
def moreItems (shape : ListShape) (item : Parser Tree) : Nat → Parser (List Tree)
  | 0 => return []
  | count + 1 => do
    let l ← peek
    if shape.ends l then return []
    else if l.isSymbol shape.separator || shape.starts l then
      let separator ← expectSymbol shape.separator
      let next ← item
      return separator :: next :: (← moreItems shape item count)
    else missingItem shape.what

/-- Reads a list with one item at least. -/
def itemsOne (shape : ListShape) (item : Parser Tree) : Parser Tree := do
  let l ← peek
  if shape.ends l || !(l.isSymbol shape.separator || shape.starts l) then missingItem shape.what
  else
    let first ← item
    let rest ← moreItems shape item (← itemLimit)
    return separated (first :: rest)

/-- Reads a list that may be empty. -/
def items (shape : ListShape) (item : Parser Tree) : Parser Tree := do
  if shape.ends (← peek) then return separated [] else itemsOne shape item

/-! ## Classes of lexemes -/

/-- Whether a lexeme ends a construct. -/
def isEndKeyword (l : Lexeme) : Bool :=
  l.cls = .keyword &&
    ["end", "endcase", "endchecker", "endclass", "endclocking", "endconfig", "endfunction",
      "endgenerate", "endgroup", "endinterface", "endmodule", "endpackage", "endprimitive",
      "endprogram", "endproperty", "endspecify", "endsequence", "endtable", "endtask", "join",
      "join_any", "join_none"].contains l.raw

/-- Whether a lexeme closes a delimiter or ends a construct. -/
def isCloser (l : Lexeme) : Bool :=
  isEndKeyword l || (l.cls = .symbol && [")", "]", "\x7d"].contains l.raw)

/-- Whether a lexeme ends a declaration. -/
def endsDeclaration (l : Lexeme) : Bool :=
  l.isSymbol ";" || l.cls = .endOfFile || isEndKeyword l

/-- Whether a lexeme ends a list in parentheses. -/
def endsParentheses (l : Lexeme) : Bool :=
  l.isSymbol ")" || endsDeclaration l

/-- Whether a lexeme ends a list in brackets. -/
def endsBrackets (l : Lexeme) : Bool :=
  l.isSymbol "]" || endsDeclaration l

/-- Whether a lexeme ends a list in braces. -/
def endsBraces (l : Lexeme) : Bool :=
  l.isSymbol "\x7d" || endsDeclaration l

/-- The words of the built-in data types. -/
def typeKeywords : List String :=
  ["logic", "bit", "reg", "byte", "shortint", "int", "longint", "integer", "time", "real",
    "shortreal", "realtime", "string", "chandle", "event", "void", "struct", "union", "enum",
    "virtual", "type"]

/-- The words of net types. -/
def netKeywords : List String :=
  ["wire", "uwire", "wand", "wor", "tri", "tri0", "tri1", "triand", "trior", "trireg", "supply0",
    "supply1", "interconnect"]

/-- The words of directions of ports. -/
def directionKeywords : List String :=
  ["input", "output", "inout", "ref"]

/-- Whether a lexeme can start an expression. -/
def startsExpression (l : Lexeme) : Bool :=
  match l.cls with
  | .identifier | .systemName | .integer | .real | .time | .base | .unsized | .string => true
  | .keyword =>
    ["null", "this", "super", "new", "tagged", "local", "signed", "unsigned", "const"].contains
      l.raw || typeKeywords.contains l.raw
  | .symbol =>
    ["(", "\x7b", "'\x7b", "+", "-", "!", "~", "&", "~&", "|", "~|", "^", "~^", "^~", "++", "--",
      "$"].contains l.raw
  | _ => false

/-- Whether a lexeme can start a property. -/
def startsProperty (l : Lexeme) : Bool :=
  startsExpression l || l.isSymbol "@" || l.isSymbol "##" ||
    (l.cls = .keyword &&
      ["not", "strong", "weak", "nexttime", "s_nexttime", "always", "s_always", "eventually",
        "s_eventually", "accept_on", "reject_on", "sync_accept_on", "sync_reject_on", "if", "case",
        "first_match", "posedge", "negedge", "edge"].contains l.raw)

/-! ## Parts that occur everywhere -/

/-- A colon with a name, such as the name of a block. -/
def blockName : Parser Tree := do
  if ← atSymbol ":" then
    let colon ← take
    let name ← if ← atKeyword "new" then take else expectName
    return node "NamedBlockClause" [colon, name]
  else return .absent

/-- The last token of a tree. -/
def lastToken? (t : Tree) : Option Token :=
  t.children.reverse.findSome? fun
    | .token tok => some tok
    | _ => none

/-- The first token of a node's children. -/
def firstToken? (t : Tree) : Option Token :=
  t.children.findSome? fun
    | .token tok => some tok
    | _ => none

/-- The name at the end of a block is the one at its start. -/
def checkNames (start : Option Token) (stop : Tree) : Parser Unit := do
  match stop, start with
  | .absent, _ => return
  | _, none =>
    match lastToken? stop with
    | some name => fail (.unexpected "name at the end of a block") name.range.start
    | none => return
  | _, some first =>
    match lastToken? stop with
    | some name =>
      if name.value ≠ first.value then
        fail (.unexpected "name at the end of a block") name.range.start
    | none => return

end Parser

end HdlLint.Verilog
