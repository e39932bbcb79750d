import HdlLint.CommandLine.Word
import HdlLint.Config.Search
import HdlLint.Report

/-!
# The meaning of a command line

`CommandLine.read` reads a command line from left to right: it is a question for help or for the
version, or it gives the options of a run. The first group of arguments names the source files;
later ones mean nothing.
-/

namespace HdlLint.CommandLine

/-- What a command line asks of a run. -/
structure Options where
  files : List Path := []
  filelists : List Path := []
  /-- Definitions, as they are written. -/
  defines : List String := []
  includes : List Path := []
  plugins : List Path := []
  config : Path := Path.ofString Config.defaultName
  ignoreInclude : Bool := false
  verbosity : Verbosity := {}
  /-- Bring the configuration file up to date. -/
  update : Bool := false
  /-- Write a sample configuration. -/
  sample : Bool := false
deriving DecidableEq, Repr

/-- What a command line is for. -/
inductive Command
  | help
  | version
  | run (options : Options)
deriving DecidableEq, Repr

/-- The arguments that name source files, while a command line is read. -/
inductive FileArguments
  | none
  /-- The last word was one of them. -/
  | opened (names : List String)
  | closed (names : List String)
deriving DecidableEq, Repr

namespace FileArguments

/-- The names of the source files. -/
def names : FileArguments → List String
  | none => []
  | opened names => names
  | closed names => names

/-- The arguments before a word that is none. -/
def close : FileArguments → FileArguments
  | opened names => closed names
  | a => a

end FileArguments

/-- What was read of a command line. -/
structure Reading where
  options : Options := {}
  files : FileArguments := .none
  /-- Words that mean nothing. -/
  unknown : List String := []

namespace Options

/-- Applies a setting. Questions for help and for the version change nothing. -/
def apply (o : Options) (s : Setting) : Options :=
  let value := s.value.getD ""
  let path := Path.ofString value
  match s.flag with
  | .filelist => { o with filelists := o.filelists ++ [path] }
  | .define => { o with defines := o.defines ++ [value] }
  | .includeDir => { o with includes := o.includes ++ [path] }
  | .config => { o with config := path }
  | .plugin => { o with plugins := o.plugins ++ [path] }
  | .ignoreInclude => { o with ignoreInclude := true }
  | .single => { o with verbosity := { o.verbosity with single := true } }
  | .silent => { o with verbosity := { o.verbosity with silent := true } }
  | .verbose => { o with verbosity := { o.verbosity with verbose := true } }
  | .update => { o with update := true }
  | .sample => { o with sample := true }
  | .help | .version => o

/-- Applies settings in order, up to a question for help or for the version. -/
def applyAll : Options → List Setting → Command
  | o, [] => .run o
  | o, s :: rest =>
    match s.flag with
    | .help => .help
    | .version => .version
    | _ => applyAll (o.apply s) rest

end Options

/-- Whether the last of some settings lacks its value. -/
def lacksValue (settings : List Setting) : Option Flag :=
  match settings.getLast? with
  | some ⟨flag, none⟩ => if flag.takesValue then some flag else none
  | _ => none

/-- Gives a value to the last of some settings. -/
def giveValue (value : String) (settings : List Setting) : List Setting :=
  settings.dropLast ++ (settings.getLast?.map fun s => ⟨s.flag, some value⟩).toList

/-- Adds a word that is no flag. -/
def Reading.addFile (r : Reading) (name : String) : Reading :=
  match r.files with
  | .none => { r with files := .opened [name] }
  | .opened names => { r with files := .opened (names ++ [name]) }
  | .closed _ => { r with unknown := r.unknown ++ [name] }

/-- Adds the lone `--`. -/
def Reading.addSeparator (r : Reading) : Reading :=
  match r.files with
  | .none => { r with files := .opened [] }
  | .opened _ => r
  | .closed _ => { r with unknown := r.unknown ++ ["--"] }

/-- The end of a command line. Source files and filelists exclude each other, and there is
something to do. -/
def Reading.finish (r : Reading) : Except Misuse Command :=
  let o := { r.options with files := r.files.names.map Path.ofString }
  if r.unknown ≠ [] then .error (.unknown r.unknown)
  else if o.files ≠ [] ∧ o.filelists ≠ [] then .error .filesAndFilelists
  else if o.files = [] ∧ o.filelists = [] ∧ !o.sample ∧ !o.update then .error .noFiles
  else .ok (.run o)

/-- Reads words one after the other. -/
def readWords : Reading → List Word → Except Misuse Command
  | r, [] => r.finish
  | r, .argument text :: rest => readWords (r.addFile text) rest
  | r, .separator :: rest => readWords r.addSeparator rest
  | r, .stray text :: rest =>
    readWords { r with files := r.files.close, unknown := r.unknown ++ [text] } rest
  | r, .flag f short attached :: rest =>
    let set (settings : List Setting) (next : Options → Except Misuse Command) :
        Except Misuse Command :=
      match r.options.applyAll settings with
      | .run o => next o
      | command => .ok command
    let after (o : Options) : Reading := { r with options := o, files := r.files.close }
    match Word.settings f short attached with
    | .error misuse => .error misuse
    | .ok settings =>
      match lacksValue settings, rest with
      | none, rest => set settings fun o => readWords (after o) rest
      | some _, .argument value :: rest =>
        set (giveValue value settings) fun o => readWords (after o) rest
      | some f, _ => .error (.noValue f)

/-- Reads a command line. -/
def read (words : List String) : Except Misuse Command :=
  match Word.readAll words with
  | .ok ws => readWords {} ws
  | .error misuse => .error misuse

end HdlLint.CommandLine
