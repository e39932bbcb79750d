import HdlLint.Text.Split

/-!
# Paths

File names in normal form: empty parts and parts that are a lone point are dropped, parts that are
two points stay. A path is relative or starts at the root; exactly two leading slashes are a root
of their own.

* `Path.ofString`, `Path.toString`: reading and writing; the empty path is written as a point;
* `Path.join`, `Path.parents`, `Path.name`: the parts of a path.
-/

namespace HdlLint

/-- Where a path starts. -/
inductive Root
  /-- At the current directory. -/
  | relative
  /-- At the root. -/
  | slash
  /-- At the root that two slashes name. -/
  | doubleSlash
deriving DecidableEq, Repr

/-- A path in normal form. -/
structure Path where
  root : Root
  parts : List String
deriving DecidableEq, Repr

instance : Inhabited Path := ⟨⟨.relative, []⟩⟩

namespace Path

/-- The root that the leading slashes of a text name. -/
def rootOf : List Char → Root
  | '/' :: '/' :: '/' :: _ => .slash
  | '/' :: '/' :: _ => .doubleSlash
  | '/' :: _ => .slash
  | _ => .relative

/-- Whether a part of a path counts: neither empty nor a lone point. -/
def isPart (part : List Char) : Bool :=
  part ≠ [] && part ≠ ['.']

/-- Reads a path and brings it into normal form. -/
def ofString (s : String) : Path :=
  ⟨rootOf s.toList, ((Text.splitOn '/' s.toList).filter isPart).map String.ofList⟩

/-- The text of a root. -/
def rootText : Root → String
  | .relative => ""
  | .slash => "/"
  | .doubleSlash => "//"

/-- The text of a path; the empty path is a point. -/
protected def toString (p : Path) : String :=
  if p.root = .relative ∧ p.parts = [] then "." else rootText p.root ++ "/".intercalate p.parts

instance : ToString Path := ⟨Path.toString⟩

/-- Whether a path starts at a root. -/
def isAbsolute (p : Path) : Bool :=
  p.root ≠ .relative

/-- The second path as seen from the first one. -/
def join (p q : Path) : Path :=
  if q.isAbsolute then q else ⟨p.root, p.parts ++ q.parts⟩

/-- The directories above the parts of a path, the nearest first. -/
def ancestors : List String → List (List String)
  | [] => []
  | part :: parts => (ancestors parts).map (part :: ·) ++ [[]]

/-- The directories above a path, the nearest first. -/
def parents (p : Path) : List Path :=
  (ancestors p.parts).map (⟨p.root, ·⟩)

/-- The last part of a path, empty where there is none. -/
def name (p : Path) : String :=
  p.parts.getLast?.getD ""

end Path

end HdlLint
