import HdlLint.Syntax.Tree

/-!
# Lexemes of SystemVerilog

The words of a source text: their classes, the keywords and symbols of the language, and a lexeme
with its place and the trivia in front of it. A lexeme that cannot be read properly carries the
places of its faults.
-/

namespace HdlLint.Verilog

/-- The class of a lexeme. -/
inductive LexemeClass
  | identifier
  | keyword
  | systemName
  /-- An operator or a delimiter. -/
  | symbol
  | integer
  | real
  | time
  /-- The base in front of the digits of a number. -/
  | base
  /-- A literal such as `'0` whose size is that of its context. -/
  | unsized
  | string
  /-- A backtick with a name: a directive or the usage of a macro. -/
  | directive
  /-- The quote of a text that a macro builds. -/
  | macroQuote
  /-- A quote within a text that a macro builds. -/
  | macroEscapedQuote
  /-- The mark that joins two lexemes of a macro. -/
  | macroPaste
  /-- A backslash at the end of a line. -/
  | lineContinuation
  /-- Stands for no text; what is in front of it belongs to the next lexeme. -/
  | emptyText
  | unknown
  | endOfFile
deriving DecidableEq, Repr

/-- A word of the source text. -/
structure Lexeme where
  cls : LexemeClass
  /-- The lexeme as it is written. -/
  raw : String
  /-- What it stands for: a name without the marks around it, a string without its quotes. -/
  value : String
  start : Location
  stop : Location
  /-- What stands in front of it. -/
  trivia : List Trivia
  /-- The places at which it cannot be read properly. -/
  faults : List Location
deriving Repr

namespace Lexeme

/-- A lexeme without text at the first place of a file. -/
def none : Lexeme :=
  ⟨.endOfFile, "", "", .origin, .origin, [], []⟩

instance : Inhabited Lexeme := ⟨none⟩

/-- The kind of a usage of a macro among directives. -/
def macroUsageKind : NodeKind := ⟨"MacroUsage"⟩

/-- Whether a piece of trivia leaves what follows on the line before it. -/
def keepsLine : Trivia → Bool
  | .text .lineEnd _ => false
  | .text .lineComment _ => false
  | .text .disabled _ => false
  | .text .blockComment raw => !(raw.toList.contains '\n' || raw.toList.contains '\r')
  | .text _ _ => true
  | .directive (.other kind) => kind = macroUsageKind
  | .directive _ => false

/-- Whether a lexeme stands on the line of the one before it. -/
def onSameLine (l : Lexeme) : Bool :=
  l.trivia.all keepsLine

/-- Whether a lexeme is the given symbol. -/
def isSymbol (l : Lexeme) (raw : String) : Bool :=
  l.cls = .symbol && l.raw == raw

/-- Whether a lexeme is the given keyword. -/
def isKeyword (l : Lexeme) (raw : String) : Bool :=
  l.cls = .keyword && l.raw == raw

/-- The kind of the token that a lexeme becomes: a keyword's kind is its word, capitalized. -/
def tokenKind (l : Lexeme) : TokenKind :=
  match l.cls with
  | .identifier => ⟨"Identifier"⟩
  | .keyword => ⟨l.raw.capitalize ++ "Keyword"⟩
  | .systemName => ⟨"SystemIdentifier"⟩
  | .integer => ⟨"IntegerLiteral"⟩
  | .real => ⟨"RealLiteral"⟩
  | .time => ⟨"TimeLiteral"⟩
  | .base => ⟨"IntegerBase"⟩
  | .unsized => ⟨"UnbasedUnsizedLiteral"⟩
  | .string => ⟨"StringLiteral"⟩
  | .endOfFile => ⟨"EndOfFile"⟩
  | _ => ⟨l.raw⟩

/-- The token of a lexeme. -/
def toToken (l : Lexeme) : Token :=
  ⟨l.tokenKind, l.raw, l.value, ⟨l.start, l.stop⟩, l.trivia⟩

end Lexeme

/-- The keywords of the language. -/
def keywords : List String :=
  ["accept_on", "alias", "always", "always_comb", "always_ff", "always_latch", "and", "assert",
    "assign", "assume", "automatic", "before", "begin", "bind", "bins", "binsof", "bit", "break",
    "buf", "bufif0", "bufif1", "byte", "case", "casex", "casez", "cell", "chandle", "checker",
    "class", "clocking", "cmos", "config", "const", "constraint", "context", "continue", "cover",
    "covergroup", "coverpoint", "cross", "deassign", "default", "defparam", "design", "disable",
    "dist", "do", "edge", "else", "end", "endcase", "endchecker", "endclass", "endclocking",
    "endconfig", "endfunction", "endgenerate", "endgroup", "endinterface", "endmodule",
    "endpackage", "endprimitive", "endprogram", "endproperty", "endsequence", "endspecify",
    "endtable", "endtask", "enum", "event", "eventually", "expect", "export", "extends", "extern",
    "final", "first_match", "for", "force", "foreach", "forever", "fork", "forkjoin", "function",
    "generate", "genvar", "global", "highz0", "highz1", "if", "iff", "ifnone", "ignore_bins",
    "illegal_bins", "implements", "implies", "import", "incdir", "include", "initial", "inout",
    "input", "inside", "instance", "int", "integer", "interconnect", "interface", "intersect",
    "join", "join_any", "join_none", "large", "let", "liblist", "library", "local", "localparam",
    "logic", "longint", "macromodule", "matches", "medium", "modport", "module", "nand",
    "negedge", "nettype", "new", "nexttime", "nmos", "nor", "noshowcancelled", "not", "notif0",
    "notif1", "null", "or", "output", "package", "packed", "parameter", "pmos", "posedge",
    "primitive", "priority", "program", "property", "protected", "pull0", "pull1", "pulldown",
    "pullup", "pulsestyle_ondetect", "pulsestyle_onevent", "pure", "rand", "randc", "randcase",
    "randsequence", "rcmos", "real", "realtime", "ref", "reg", "reject_on", "release", "repeat",
    "restrict", "return", "rnmos", "rpmos", "rtran", "rtranif0", "rtranif1", "s_always",
    "s_eventually", "s_nexttime", "s_until", "s_until_with", "scalared", "sequence", "shortint",
    "shortreal", "showcancelled", "signed", "small", "soft", "solve", "specify", "specparam",
    "static", "string", "strong", "strong0", "strong1", "struct", "super", "supply0", "supply1",
    "sync_accept_on", "sync_reject_on", "table", "tagged", "task", "this", "throughout", "time",
    "timeprecision", "timeunit", "tran", "tranif0", "tranif1", "tri", "tri0", "tri1", "triand",
    "trior", "trireg", "type", "typedef", "union", "unique", "unique0", "unsigned", "until",
    "until_with", "untyped", "use", "uwire", "var", "vectored", "virtual", "void", "wait",
    "wait_order", "wand", "weak", "weak0", "weak1", "while", "wildcard", "wire", "with", "within",
    "wor", "xnor", "xor"]

/-- The symbols of the language. Of two that start alike the longer one stands first. -/
def symbols : List String :=
  ["<<<=", ">>>=", "(*)", "<<<", ">>>", "<<=", ">>=", "<->", "===", "!==", "==?", "!=?", "&&&", "->>",
    "|->", "|=>", "#-#", "#=#", "+/-", "+%-", "(*", "*)", "::", ":=", ":/", ".*", "##", "@@", "!=", "%=", "&&",
    "&=", "**", "*>", "*=", "++", "+=", "+:", "--", "-=", "->", "-:", "/=", "<=", "<<", "==", "=>",
    ">=", ">>", "^~", "^=", "||", "|=", "~&", "~|", "~^", "'\x7b", "(", ")", "[", "]", "\x7b",
    "\x7d", ";", ":", ",", ".", "#", "?", "@", "!", "%", "&", "*", "+", "-", "/", "<", "=", ">",
    "^", "|", "~", "'", "$"]

end HdlLint.Verilog
