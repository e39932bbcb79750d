/-!
# Environment references

Texts refer to environment variables by `${NAME}` or `$(NAME)`. `Environment.expand` replaces the
references of a line in one pass from left to right: values are not read again, and a reference
to an unknown variable stays as it is written.
-/

namespace HdlLint

/-- The environment variables of a run. -/
structure Environment where
  vars : List (String × String)

namespace Environment

/-- The value of a variable. -/
def get? (env : Environment) (name : String) : Option String :=
  (env.vars.find? (·.1 == name)).map (·.2)

/-- A name that is not empty, up to its closing character, and the text after it. -/
def nameUpTo? (close : Char) (s : List Char) : Option (List Char × List Char) :=
  match s.takeWhile (· ≠ close), s.dropWhile (· ≠ close) with
  | c :: name, _ :: rest => some (c :: name, rest)
  | _, _ => none

/-- The reference at the front of a text: the name and the text after the reference. -/
def reference? : List Char → Option (List Char × List Char)
  | '$' :: '{' :: rest => nameUpTo? '\x7d' rest
  | '$' :: '(' :: rest => nameUpTo? ')' rest
  | _ => none

theorem length_of_nameUpTo? {close : Char} {s name rest : List Char}
    (h : nameUpTo? close s = some (name, rest)) : rest.length < s.length := by
  unfold nameUpTo? at h
  split at h
  · rename_i c n x r h₁ h₂
    obtain ⟨-, rfl⟩ := Prod.mk.inj (Option.some.inj h)
    have hl := congrArg List.length (List.takeWhile_append_dropWhile (p := (· ≠ close)) (l := s))
    rw [h₁, h₂] at hl
    simp only [List.length_append, List.length_cons] at hl
    omega
  · exact absurd h (by simp)

/-- The text after a reference is shorter than the text it started. -/
theorem length_of_reference? {s name rest : List Char} (h : reference? s = some (name, rest)) :
    rest.length < s.length := by
  unfold reference? at h
  split at h
  · have := length_of_nameUpTo? h; simp only [List.length_cons]; omega
  · have := length_of_nameUpTo? h; simp only [List.length_cons]; omega
  · exact absurd h (by simp)

/-- Replaces the references of a text, from left to right. -/
def expandChars (env : Environment) : List Char → List Char
  | [] => []
  | c :: s =>
    match h : reference? (c :: s) with
    | some (name, rest) =>
      have := length_of_reference? h
      (match env.get? (String.ofList name) with
        | some value => value.toList
        | none => (c :: s).take ((c :: s).length - rest.length)) ++ env.expandChars rest
    | none => c :: env.expandChars s
termination_by s => s.length
decreasing_by
  · assumption
  · simp

/-- The names that a text refers to, from left to right. -/
def referencedNames : List Char → List String
  | [] => []
  | c :: s =>
    match h : reference? (c :: s) with
    | some (name, rest) =>
      have := length_of_reference? h
      String.ofList name :: referencedNames rest
    | none => referencedNames s
termination_by s => s.length
decreasing_by
  · assumption
  · simp

/-- Replaces the references of a line. -/
def expand (env : Environment) (line : String) : String :=
  String.ofList (env.expandChars line.toList)

end Environment

end HdlLint
