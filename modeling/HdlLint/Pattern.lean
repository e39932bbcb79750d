import HdlLint.Pattern.Matcher
import HdlLint.Pattern.Reader

/-!
# Patterns

A pattern is the text of a regular expression (`Pattern.check`). `Pattern.occursIn` tells whether
it matches anywhere in a text.
-/

namespace HdlLint.Pattern

/-- Checks that a text is a regular expression. -/
def check (pattern : String) : Except Fault Unit :=
  (read pattern).map fun _ => ()

/-- Whether a pattern matches anywhere in a text. -/
def occursIn (pattern text : String) : Except Fault Bool :=
  match read pattern with
  | .ok items => .ok (occurs items text.toList.toArray)
  | .error fault => .error fault

end HdlLint.Pattern
