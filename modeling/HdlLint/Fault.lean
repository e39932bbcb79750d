import HdlLint.FileSystem
import HdlLint.Value

/-!
# Faults of plugins

What the code of a plugin raises when it fails: a kind with arguments. Kinds are told apart by their
names, so one that a plugin makes from another is a kind of its own. A fault of the system has a
number as its first argument, which decides its kind (`Fault.raise`). `Fault.message` is what a
fault tells, `Fault.shown` how it is written. A fault that is meant to end the program is caught by
nobody, and so is one that fails in its turn when it is asked what it tells (`Fault.escapes`):
nothing is told of these (`Fault.message?`, `Fault.shown?`).
-/

namespace HdlLint

/-- A failure of the code of a plugin. -/
structure Fault where
  kind : String
  arguments : List Value
  /-- The files that a fault of the system names. -/
  files : List Value := []
  /-- Whether nobody catches the fault, or it cannot be told. -/
  escapes : Bool := false

namespace Fault

/-- The kinds of faults of the system that go with a number. -/
def numberedKinds : List (Int × String) :=
  [(1, "PermissionError"), (2, "FileNotFoundError"), (3, "ProcessLookupError"),
    (4, "InterruptedError"), (10, "ChildProcessError"), (11, "BlockingIOError"),
    (13, "PermissionError"), (17, "FileExistsError"), (20, "NotADirectoryError"),
    (21, "IsADirectoryError"), (32, "BrokenPipeError"), (103, "ConnectionAbortedError"),
    (104, "ConnectionResetError"), (108, "BrokenPipeError"), (110, "TimeoutError"),
    (111, "ConnectionRefusedError"), (114, "BlockingIOError"), (115, "BlockingIOError")]

/-- Other names of the kind of faults of the system. -/
def systemNames : List String :=
  ["OSError", "IOError", "EnvironmentError"]

/-- The kinds of faults of the system. -/
def systemKinds : List String :=
  systemNames ++ ["ConnectionError"] ++ numberedKinds.map (·.2)

/-- The kinds of faults while a program runs. -/
def runtimeKinds : List String :=
  ["RuntimeError", "NotImplementedError", "RecursionError"]

/-- The kinds of faults that are meant to end a program. -/
def endingKinds : List String :=
  ["SystemExit", "KeyboardInterrupt", "GeneratorExit", "BaseException", "BaseExceptionGroup"]

/-- Whether a fault comes from the system. -/
def isSystem (f : Fault) : Bool :=
  systemKinds.contains f.kind

/-- Whether a fault is one of a running program. -/
def isRuntime (f : Fault) : Bool :=
  runtimeKinds.contains f.kind

/-- The kind that a number decides among the faults of the system. -/
def kindOfNumber (kind : String) : Value → String
  | .int n => ((numberedKinds.find? (·.1 = n)).map (·.2)).getD kind
  | _ => kind

/-- The files among the further arguments of a fault of the system: the third and the fifth. -/
def filesOf : List Value → List Value
  | [] => []
  | .nothing :: _ => []
  | file :: rest =>
    match rest with
    | _ :: other :: _ => [file, other]
    | _ => [file]

/-- The fault that is raised as a kind with arguments. -/
def raise (kind : String) (arguments : List Value) : Fault :=
  if systemKinds.contains kind then
    let kind := if systemNames.contains kind then "OSError" else kind
    match arguments with
    | number :: reason :: rest =>
      if rest.length ≤ 3 then
        let kind := if kind = "OSError" then kindOfNumber kind number else kind
        let files := filesOf rest
        if files.isEmpty then { kind, arguments }
        else { kind, arguments := [number, reason], files }
      else { kind, arguments }
    | _ => { kind, arguments }
  else { kind, arguments, escapes := endingKinds.contains kind }

/-- Several values in parentheses. -/
def shownArguments (arguments : List Value) : String :=
  "(" ++ ", ".intercalate (arguments.map Value.shown) ++ ")"

/-- What a fault tells. -/
def message (f : Fault) : String :=
  match f.arguments with
  | [] => ""
  | [argument] => if f.kind = "KeyError" then argument.shown else argument.display
  | number :: reason :: rest =>
    if f.isSystem && rest.length ≤ 3 then
      s!"[Errno {number.display}] " ++ reason.display ++
        (if f.files.isEmpty then ""
        else ": " ++ " -> ".intercalate (f.files.map Value.shown))
    else shownArguments f.arguments

/-- A fault as it is written. -/
def shown (f : Fault) : String :=
  f.kind ++ shownArguments f.arguments

/-- What a fault tells where faults are caught, if it is caught there. -/
def message? (f : Fault) : Option String :=
  if f.escapes then none else some f.message

/-- A fault as it is written where faults are caught, if it is caught there. -/
def shown? (f : Fault) : Option String :=
  if f.escapes then none else some f.shown

/-- The fault of looking at a path where the system refuses it. -/
def ofRefusal (r : Refusal) (path : Path) : Fault :=
  raise "OSError" [.int r.number, .text r.reason, .text path.toString]

/-- The fault of reading a field where there is no node. -/
def noField (field : String) : Fault where
  kind := "AttributeError"
  arguments := [.text s!"'NoneType' object has no attribute '{field}'"]

end Fault

end HdlLint
