import HdlLint.CommandLine.Word
import HdlLint.Text.Split

/-!
# Texts about the command line

The usage, the help, and what is written about a command line that is misused.
-/

namespace HdlLint.CommandLine

/-- The name of the program. -/
def programName : String :=
  "svlint"

/-- The version of the program. -/
def versionText : String :=
  programName ++ " 0.1.0\n"

/-- How the program is used. -/
def usageText : String :=
  Text.ofLines
    ["usage: svlint [-h] [--version] [-f FILELIST] [-d IDENT[=TEXT]] [-i INCLUDES]",
      "              [-c CONFIG] [-p PLUGINS] [--ignore-include] [-1] [-s] [-v]",
      "              [--update] [--example]",
      "              [FILE ...]"]

/-- The help on the program. -/
def helpText : String :=
  usageText ++
    Text.ofLines
      ["",
        "svlint: SystemVerilog linter",
        "",
        "positional arguments:",
        "  FILE                  Source file",
        "",
        "options:",
        "  -h, --help            show this help message and exit",
        "  --version             show program's version number and exit",
        "  -f FILELIST, --filelist FILELIST",
        "                        File list",
        "  -d IDENT[=TEXT], --define IDENT[=TEXT]",
        "                        Define",
        "  -i INCLUDES, --include INCLUDES",
        "                        Include path",
        "  -c CONFIG, --config CONFIG",
        "                        Config file",
        "  -p PLUGINS, --plugin PLUGINS",
        "                        Plugin file",
        "  --ignore-include      Ignore any include",
        "  -1                    Prints results by single line",
        "  -s, --silent          Suppresses message",
        "  -v, --verbose         Prints verbose message",
        "  --update              Updates config",
        "  --example             Prints config example"]

/-- What is written about a misuse. -/
def misuseText (misuse : Misuse) : String :=
  usageText ++ programName ++ ": error: " ++ misuse.message ++ "\n"

end HdlLint.CommandLine
