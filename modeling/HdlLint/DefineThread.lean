import HdlLint.Define
import HdlLint.Syntax.Walk
import HdlLint.Text.Blank

/-!
# Definitions from one file to the next

The directives of a syntax tree stand in front of its tokens. `DefineTable.thread` updates the
table of definitions by all of them, in order.
-/

namespace HdlLint

namespace BodyToken

/-- The text of a token of a macro, with what stands in front of it. -/
def text (t : BodyToken) : List Char :=
  t.leading.flatMap String.toList ++ t.raw.toList

end BodyToken

namespace Define

/-- The definition that a directive gives. Blanks around its arguments and its text do not count,
and an empty text is none. -/
def ofDirective (name : String) (arguments : List String) (body : List BodyToken) : Define :=
  { identifier := name
    arguments := arguments.map Text.stripString
    text :=
      match Text.strip (body.flatMap BodyToken.text) with
      | [] => none
      | text => some (String.ofList text) }

end Define

namespace Directive

/-- The table after a directive. -/
def apply (table : DefineTable) : Directive → DefineTable
  | .define name arguments body => table.define (Define.ofDirective name arguments body)
  | .undef name => table.erase name
  | .undefineAll => OrderedTable.empty
  | .other _ => table

end Directive

namespace Tree

/-- The directives in front of a token. -/
def directivesOf (t : Token) : List Directive :=
  t.trivia.filterMap fun
    | .directive d => some d
    | .text .. => none

/-- The directives of a tree, from left to right. -/
def directives (t : Tree) : List Directive :=
  t.tokens.flatMap directivesOf

end Tree

namespace DefineTable

/-- Updates a table by the directives in front of a token. -/
def threadToken (table : DefineTable) (t : Token) : DefineTable :=
  t.trivia.foldl (fun acc trivia =>
    match trivia with
    | .directive d => d.apply acc
    | .text .. => acc) table

/-- The definitions in effect behind a tree. -/
def thread (table : DefineTable) (t : Tree) : DefineTable :=
  t.tokens.foldl threadToken table

end DefineTable

end HdlLint
