import HdlLint.FileSystem

/-!
# Finding the configuration file

The configuration file is looked for in a directory and in those above it; the nearest one counts
(`Config.search?`).
-/

namespace HdlLint.Config

/-- The name of the configuration file, unless another one is given. -/
def defaultName : String :=
  ".svlint.toml"

/-- The places of a name in a directory and in those above it, the nearest first. -/
def candidates (name start : Path) : List Path :=
  (start :: start.parents).map (·.join name)

/-- The first of some paths at which anything stands, if one may look at those before it. -/
def firstExisting (fs : FileSystem) : List Path → Except Refusal (Option Path)
  | [] => .ok none
  | path :: paths =>
    match fs.exists? path with
    | .error refusal => .error refusal
    | .ok true => .ok (some path)
    | .ok false => firstExisting fs paths

/-- The nearest place of a name in a directory and in those above it. -/
def search? (fs : FileSystem) (name start : Path) : Except Refusal (Option Path) :=
  firstExisting fs (candidates name start)

end HdlLint.Config
