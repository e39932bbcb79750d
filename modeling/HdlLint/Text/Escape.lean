/-!
# Backslash escapes

`unescape` reads the escapes of a definition's text: a backslash and one of `n t r 0 \ " '` stand
for one character, and any other backslash for itself.
-/

namespace HdlLint.Text

/-- The character that an escape stands for, by the character after the backslash. -/
def escaped? : Char → Option Char
  | 'n' => some '\n'
  | 't' => some '\t'
  | 'r' => some '\r'
  | '0' => some '\x00'
  | '\\' => some '\\'
  | '"' => some '"'
  | '\'' => some '\''
  | _ => none

/-- Reads the escapes from left to right; an unknown escape and a last lone backslash stay. -/
def unescapeChars : List Char → List Char
  | '\\' :: c :: rest =>
    match escaped? c with
    | some d => d :: unescapeChars rest
    | none => '\\' :: c :: unescapeChars rest
  | c :: rest => c :: unescapeChars rest
  | [] => []

/-- Reads the escapes of a text. -/
def unescape (s : String) : String :=
  String.ofList (unescapeChars s.toList)

end HdlLint.Text
