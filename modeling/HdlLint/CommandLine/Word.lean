import HdlLint.CommandLine.Flag
import HdlLint.Text.Quoted

/-!
# Words of the command line

The words of a command line are told apart one by one (`Word.read`): flags, perhaps with a text
attached to them, and arguments. Behind a lone `--` all words are arguments. Short flags may share
one word (`Word.cluster`).
-/

namespace HdlLint.CommandLine

/-- What is wrong with a command line. -/
inductive Misuse
  /-- A shortened name that several flags have. -/
  | ambiguous (word : String) (names : List String)
  /-- A flag that takes a value stands without one. -/
  | noValue (flag : Flag)
  /-- A text is attached to a flag that takes none. -/
  | strayValue (flag : Flag) (text : String)
  /-- Words that mean nothing. -/
  | unknown (words : List String)
  /-- Source files stand beside filelists. -/
  | filesAndFilelists
  /-- There is nothing to do. -/
  | noFiles
deriving DecidableEq, Repr

namespace Misuse

/-- The names of a flag in messages. -/
def flagName (flag : Flag) : String :=
  "argument " ++ "/".intercalate flag.names

/-- The message of a misuse. -/
def message : Misuse → String
  | ambiguous word names => s!"ambiguous option: {word} could match " ++ ", ".intercalate names
  | noValue flag => flagName flag ++ ": expected one argument"
  | strayValue flag text => flagName flag ++ ": ignored explicit argument " ++ Text.quote text
  | unknown words => "unrecognized arguments: " ++ " ".intercalate words
  | filesAndFilelists => flagName .filelist ++ ": not allowed with positional FILE arguments"
  | noFiles => "the following arguments are required: FILE or -f/--filelist"

end Misuse

/-- A flag with the value that is given to it. -/
structure Setting where
  flag : Flag
  value : Option String
deriving DecidableEq, Repr

/-- A word of the command line. -/
inductive Word
  | argument (text : String)
  /-- The lone `--`. -/
  | separator
  /-- A flag. A short one may share its word with others. -/
  | flag (flag : Flag) (short : Bool) (attached : Option (List Char))
  /-- A word that looks like a flag and is none. -/
  | stray (text : String)
deriving DecidableEq, Repr

namespace Word

/-- The text in front of the first equals sign, and the text behind it if there is one. -/
def splitValue (word : List Char) : List Char × Option (List Char) :=
  match word.dropWhile (· ≠ '=') with
  | [] => (word, none)
  | _ :: value => (word.takeWhile (· ≠ '='), some value)

/-- A word that is no name of a flag as a whole, and starts with a dash and another character. -/
def readPartial (word : List Char) : Except Misuse Word :=
  let (name, value) := splitValue word
  match value, Flag.ofName? (String.ofList name) with
  | some value, some f => .ok (.flag f (word.take 2 ≠ ['-', '-']) (some value))
  | _, _ =>
    let other : Word :=
      if word.contains ' ' then .argument (String.ofList word) else .stray (String.ofList word)
    match word with
    | '-' :: '-' :: _ =>
      match Flag.abbreviated name with
      | [] => .ok other
      | [(_, f)] => .ok (.flag f false value)
      | several => .error (.ambiguous (String.ofList word) (several.map (·.1)))
    | _ =>
      match Flag.ofName? (String.ofList (word.take 2)) with
      | some f => .ok (.flag f true (some (word.drop 2)))
      | none => .ok other

/-- Tells what a word is that does not stand behind `--`. -/
def read (word : String) : Except Misuse Word :=
  match word.toList, Flag.ofName? word with
  | '-' :: '-' :: _, some f => .ok (.flag f false none)
  | _, some f => .ok (.flag f true none)
  | '-' :: c :: rest, none => readPartial ('-' :: c :: rest)
  | _, none => .ok (.argument word)

/-- Tells what the words of a command line are. -/
def readAll : List String → Except Misuse (List Word)
  | [] => .ok []
  | word :: words =>
    if word = "--" then .ok (.separator :: words.map .argument)
    else
      match read word, readAll words with
      | .ok w, .ok ws => .ok (w :: ws)
      | .error misuse, _ => .error misuse
      | _, .error misuse => .error misuse

/-- The settings of a word that starts with a flag and has a text attached to it: the value of the
flag, or further short flags. The last one may still lack its value. Readers of command lines differ
in the rest. This one passes over an equals sign behind a short flag without a value, so that `-s=v`
is `-sv`, and takes a text that goes on with no flag, as in `-sx`, for a value that the flag has no use
for; newer ones refuse the former so, and the latter as an unknown word. -/
def cluster (f : Flag) (short : Bool) : List Char → Except Misuse (List Setting)
  | [] => if f.takesValue then .ok [⟨f, some ""⟩] else .error (.strayValue f "")
  | c :: rest =>
    if f.takesValue then .ok [⟨f, some (String.ofList (c :: rest))⟩]
    else if !short then .error (.strayValue f (String.ofList (c :: rest)))
    else
      match Flag.ofName? (String.ofList ['-', c]), rest with
      | none, _ => .error (.strayValue f (String.ofList (c :: rest)))
      | some g, [] => .ok [⟨f, none⟩, ⟨g, none⟩]
      | some g, d :: rest => (cluster g short (d :: rest)).map (⟨f, none⟩ :: ·)

/-- The settings of a word that is a flag. -/
def settings (f : Flag) (short : Bool) : Option (List Char) → Except Misuse (List Setting)
  | none => .ok [⟨f, none⟩]
  | some attached => cluster f short attached

end Word

end HdlLint.CommandLine
