import HdlLint.CommandLine.Options
import HdlLint.CommandLine.Usage
import HdlLint.Config.File
import HdlLint.Filelist
import HdlLint.Run

/-!
# The program

What a command line does on a host: the reports and messages, the exit code, and the files behind
it (`Program.start`). The stages of a run are the configuration, the plugins, the filelists and the
source files; the first one that fails ends the program, with a message if the failure has one
(`FatalError.message?`). What is written always arrives, and memory and time suffice.

* `Program.inputs`: the files, include directories and definitions of a run;
* `Program.prepare`: a run from its options and its configuration;
* `Program.execute`: all stages.
-/

namespace HdlLint

open CommandLine (Options)

/-- What a program finds on the machine that it runs on. -/
structure Host where
  files : FileSystem
  environment : Environment
  plugins : PluginModules
  /-- What parses source files, by the files that there are. -/
  parser : FileSystem → SourceParser

/-- What ends a program before all files were looked at. -/
inductive FatalError
  /-- The system does not let one look for the configuration file. -/
  | search (refusal : Refusal)
  | config (fault : Config.Fault)
  | plugin (fault : PluginFault)
  | filelist (fault : FilelistFault)
  /-- A pattern of excluded files that is no regular expression. -/
  | pattern (fault : Pattern.Fault)
  /-- A fault of parsing a source file that is no error of the file. -/
  | parser (fault : Fault)

/-- What a program leaves behind. -/
structure Outcome where
  /-- The exit code that the program gives. There is none where it breaks off without a message,
  whatever the fault that it breaks off with tells the system. -/
  exit : Except FatalError Nat
  stdout : String
  stderr : String
  files : FileSystem

namespace FatalError

/-- The fatal error that a fault of a run is. -/
def ofRun : RunFault → FatalError
  | .pattern fault => pattern fault
  | .rule fault => plugin fault
  | .parser fault => parser fault

/-- The message of a fatal error. The program breaks off without one where a document holds a
number or a pattern beyond all bounds, where a name holds a null character, where filelists refer
to themselves, where the system does not let one look for a file, and where a plugin or the parser
fails in a way that nothing catches. -/
def message? : FatalError → Option String
  | search _ => none
  | config (.refused _ (.document .numberTooLong)) => none
  | config (.refused _ (.badPattern _ .countTooLarge)) => none
  | config (.refused _ (.badPattern _ .contradictoryOptions)) => none
  | config (.unopened _ (.file .nulInName)) => none
  | config (.unwritten _ .nulInName) => none
  | config fault => some fault.message
  | plugin fault => fault.message?
  | filelist .endless => none
  | filelist (.unreadable _ (.file .nulInName)) => none
  | filelist fault => some fault.message
  | pattern _ => none
  | parser _ => none

end FatalError

namespace Outcome

/-- The outcome of a program that ends with a fatal error. -/
def fatal (files : FileSystem) (stdout stderr : String) (e : FatalError) : Outcome :=
  match e.message? with
  | some message => ⟨.ok 2, stdout, stderr ++ Report.errorLine message ++ "\n", files⟩
  | none => ⟨.error e, stdout, stderr, files⟩

/-- The outcome of a program whose run came to an end, behind some warnings. -/
def ofRun (files : FileSystem) (v : Verbosity) (warnings : String) (run : Run) : Outcome :=
  let stdout := Report.write files v run.reports
  let stderr := warnings ++ run.warnings v
  match run.outcome with
  | .ok passed => ⟨.ok (if passed then 0 else 1), stdout, stderr, files⟩
  | .error fault => fatal files stdout stderr (.ofRun fault)

end Outcome

namespace Program

/-- The definitions of the command line. -/
def definesOf (o : Options) : DefineTable :=
  (o.defines.map Define.ofOption).foldl DefineTable.define OrderedTable.empty

/-- Appends filelists to what is there, in order. -/
def addFilelists (h : Host) : Filelist → List Path → Except FilelistFault Filelist
  | acc, [] => .ok acc
  | acc, path :: paths =>
    match Filelist.load h.files h.environment path with
    | .ok filelist => addFilelists h (acc.merge filelist) paths
    | .error fault => .error fault

/-- The source files, include directories and definitions of a run: those of the command line, and
behind them those of its filelists. -/
def inputs (h : Host) (o : Options) : Except FilelistFault Filelist :=
  addFilelists h ⟨o.files, o.includes, definesOf o⟩ o.filelists

/-- Loads plugins into a linter, in order. -/
def loadPlugins (h : Host) : Linter → List Path → Except PluginFault Linter
  | l, [] => .ok l
  | l, path :: paths =>
    match l.load h.plugins h.files path with
    | (l', none) => loadPlugins h l' paths
    | (_, some fault) => .error fault

/-- How a run parses its files. -/
def parseFile (h : Host) (o : Options) (includes : List Path) : ParseFile :=
  fun path defines =>
    ParsedSource.read h.files (h.parser h.files) path defines includes o.ignoreInclude

/-- The run that options ask for under a configuration. -/
def prepare (h : Host) (o : Options) (c : Config) : Except FatalError Run :=
  match loadPlugins h (Linter.ofConfig c) o.plugins with
  | .error fault => .error (.plugin fault)
  | .ok linter =>
    match inputs h o with
    | .error fault => .error (.filelist fault)
    | .ok i => .ok (Run.ofPaths linter (parseFile h o i.includes) i.defines i.files)

/-- The outcome of a run under a configuration, behind some warnings. -/
def lint (h : Host) (o : Options) (warnings : String) (c : Config) : Outcome :=
  match prepare h o c with
  | .error e => Outcome.fatal h.files "" warnings e
  | .ok run => Outcome.ofRun h.files o.verbosity warnings run

/-- The warning that there is no configuration file of a name. -/
def noConfigWarning (name : Path) : String :=
  s!"[svlint] Config file '{name}' is not found. Enable all rules\n"

/-- Does what options ask for. -/
def execute (h : Host) (o : Options) : Outcome :=
  if o.sample then ⟨.ok 0, Config.default.toText, "", h.files⟩
  else
    match Config.search? h.files o.config h.files.currentPath with
    | .error refusal => Outcome.fatal h.files "" "" (.search refusal)
    | .ok none => lint h o (noConfigWarning o.config) Config.default.enableAll
    | .ok (some path) =>
      match Config.load h.files path with
      | (warnings, .error fault) => Outcome.fatal h.files "" warnings (.config fault)
      | (warnings, .ok c) =>
        if o.update then
          match Config.store h.files path c with
          | .ok files => ⟨.ok 0, "", warnings, files⟩
          | .error fault => Outcome.fatal h.files "" warnings (.config fault)
        else lint h o warnings c

/-- Runs the program with the words of a command line. -/
def start (h : Host) (words : List String) : Outcome :=
  match CommandLine.read words with
  | .ok .help => ⟨.ok 0, CommandLine.helpText, "", h.files⟩
  | .ok .version => ⟨.ok 0, CommandLine.versionText, "", h.files⟩
  | .ok (.run o) => execute h o
  | .error misuse => ⟨.ok 2, "", CommandLine.misuseText misuse, h.files⟩

end Program

end HdlLint
