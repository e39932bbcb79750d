import HdlLint.Syntax.Location

/-!
# Syntax trees

The tree of a source file: nodes of a kind with children, and tokens with the trivia in front of
them. Directives of the preprocessor are trivia too. Kinds are open: a kind is its name, and those
that rules look at have constants (`NodeKind`, `TokenKind`).
-/

namespace HdlLint

/-- The kind of a node, by its name. -/
structure NodeKind where
  name : String
deriving DecidableEq, Repr

/-- The kind of a token, by its name. -/
structure TokenKind where
  name : String
deriving DecidableEq, Repr

/-- The class of a piece of text between tokens. -/
inductive TriviaKind
  | blank
  | lineEnd
  | lineComment
  | blockComment
  /-- Text that a conditional directive leaves out. -/
  | disabled
  | other
deriving DecidableEq, Repr

/-- A token of the text of a macro: the trivia in front of it, and its own text. -/
structure BodyToken where
  leading : List String
  raw : String
deriving DecidableEq, Repr

/-- A directive of the preprocessor, as far as definitions are concerned. -/
inductive Directive
  /-- A definition: the name, the formal arguments as written, and the tokens of the text. -/
  | define (name : String) (arguments : List String) (body : List BodyToken)
  | undef (name : String)
  | undefineAll
  /-- Any other directive, by its kind. -/
  | other (kind : NodeKind)
deriving DecidableEq, Repr

/-- What stands in front of a token. -/
inductive Trivia
  | text (kind : TriviaKind) (raw : String)
  | directive (directive : Directive)
deriving DecidableEq, Repr

/-- A token with the trivia in front of it. -/
structure Token where
  kind : TokenKind
  /-- The token as it is written. -/
  raw : String
  /-- What the token stands for. -/
  value : String
  range : Range
  trivia : List Trivia
deriving DecidableEq, Repr

/-- What is known of a node beside its children. -/
structure NodeHead where
  kind : NodeKind
  range : Range
  /-- The children that have a name, by their places. -/
  fields : List (String × Nat)
deriving DecidableEq, Repr

/-- A syntax tree. -/
inductive Tree
  | node (head : NodeHead) (children : List Tree)
  | token (token : Token)
  /-- A child that is not there. -/
  | absent

namespace NodeKind

def compilationUnit : NodeKind := ⟨"CompilationUnit"⟩
def moduleDeclaration : NodeKind := ⟨"ModuleDeclaration"⟩
def nonAnsiPortList : NodeKind := ⟨"NonAnsiPortList"⟩
def generateRegion : NodeKind := ⟨"GenerateRegion"⟩
def generateBlock : NodeKind := ⟨"GenerateBlock"⟩
def ifGenerate : NodeKind := ⟨"IfGenerate"⟩
def loopGenerate : NodeKind := ⟨"LoopGenerate"⟩
def elseClause : NodeKind := ⟨"ElseClause"⟩
def conditionalStatement : NodeKind := ⟨"ConditionalStatement"⟩
def caseStatement : NodeKind := ⟨"CaseStatement"⟩

end NodeKind

namespace TokenKind

def uniqueKeyword : TokenKind := ⟨"UniqueKeyword"⟩
def priorityKeyword : TokenKind := ⟨"PriorityKeyword"⟩

end TokenKind

namespace Tree

instance : Inhabited Tree := ⟨.absent⟩

/-- Whether a tree is a node. -/
def isNode : Tree → Bool
  | .node .. => true
  | _ => false

/-- Whether a tree is there. -/
def isPresent : Tree → Bool
  | .absent => false
  | _ => true

/-- The head of a node. -/
def head? : Tree → Option NodeHead
  | .node head _ => some head
  | _ => none

/-- The kind of a node. -/
def nodeKind? : Tree → Option NodeKind
  | .node head _ => some head.kind
  | _ => none

/-- The kind of a token. -/
def tokenKind? : Tree → Option TokenKind
  | .token t => some t.kind
  | _ => none

/-- Whether a tree is a node of a kind. -/
def hasKind (t : Tree) (kind : NodeKind) : Bool :=
  t.nodeKind? = some kind

/-- The range of a tree. -/
def range : Tree → Range
  | .node head _ => head.range
  | .token t => t.range
  | .absent => .origin

/-- The children of a node. -/
def children : Tree → List Tree
  | .node _ children => children
  | _ => []

/-- The child of a name. -/
def field (t : Tree) (name : String) : Tree :=
  match t with
  | .node head children =>
    match head.fields.find? (·.1 == name) with
    | some (_, place) => children.getD place .absent
    | none => .absent
  | _ => .absent

/-- The name of a tree's kind, of a node or a token. -/
def kindName? : Tree → Option String
  | .node head _ => some head.kind.name
  | .token t => some t.kind.name
  | .absent => none

end Tree

end HdlLint
