import HdlLint.Config.Basic
import HdlLint.Path
import HdlLint.Pattern

/-!
# Excluded files

A file is left out if one of the patterns of the configuration matches anywhere in its path. The
patterns are tried in order, up to the first one that matches.
-/

namespace HdlLint.Config

/-- Whether one of several patterns matches in a text. -/
def matchesAny (text : String) : List String → Except Pattern.Fault Bool
  | [] => .ok false
  | pattern :: rest =>
    match Pattern.occursIn pattern text with
    | .ok true => .ok true
    | .ok false => matchesAny text rest
    | .error fault => .error fault

/-- Whether a file is left out. -/
def isExcluded (c : Config) (path : Path) : Except Pattern.Fault Bool :=
  matchesAny path.toString c.excludePaths

end HdlLint.Config
