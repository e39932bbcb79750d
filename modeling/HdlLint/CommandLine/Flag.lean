/-!
# Flags of the command line

Each flag has one or two names, and some take a value. A long name may be shortened as long as one
flag alone has it (`Flag.abbreviated`).
-/

namespace HdlLint.CommandLine

/-- A flag. -/
inductive Flag
  | help
  | version
  | filelist
  | define
  | includeDir
  | config
  | plugin
  | ignoreInclude
  | single
  | silent
  | verbose
  | update
  | sample
deriving DecidableEq, Repr

namespace Flag

/-- All flags. -/
def all : List Flag :=
  [help, version, filelist, define, includeDir, config, plugin, ignoreInclude, single, silent,
    verbose, update, sample]

/-- The names of a flag, the short one first. -/
def names : Flag → List String
  | help => ["-h", "--help"]
  | version => ["--version"]
  | filelist => ["-f", "--filelist"]
  | define => ["-d", "--define"]
  | includeDir => ["-i", "--include"]
  | config => ["-c", "--config"]
  | plugin => ["-p", "--plugin"]
  | ignoreInclude => ["--ignore-include"]
  | single => ["-1"]
  | silent => ["-s", "--silent"]
  | verbose => ["-v", "--verbose"]
  | update => ["--update"]
  | sample => ["--example"]

/-- Whether a flag takes a value. -/
def takesValue : Flag → Bool
  | filelist | define | includeDir | config | plugin => true
  | _ => false

/-- The flag of a name. -/
def ofName? (name : String) : Option Flag :=
  all.find? (·.names.contains name)

/-- The flags by all their names. -/
def byName : List (String × Flag) :=
  all.flatMap fun f => f.names.map (·, f)

/-- The flags with a name that starts with a text, with that name. -/
def abbreviated (start : List Char) : List (String × Flag) :=
  byName.filter fun e => start.isPrefixOf e.1.toList

end Flag

end HdlLint.CommandLine
