import HdlLint.Syntax.Location

/-!
# Faults of source texts

What can be wrong with a SystemVerilog text, where it shows, and how it is reported: by the name
of its cause (`Cause.code`) and a message.
-/

namespace HdlLint.Verilog

/-- What is wrong with a source text. -/
inductive Cause
  /-- Characters that make no lexeme. -/
  | badText
  /-- A part of the grammar is missing. -/
  | expected (what : String)
  /-- A part of the grammar stands where it must not. -/
  | unexpected (what : String)
  /-- A usage of a macro that is not defined. -/
  | unknownMacro (name : String)
  /-- A usage without arguments of a macro that needs them. -/
  | missingArguments
  | tooFewArguments
  | tooManyArguments
  /-- A macro whose text uses the macro itself. -/
  | recursiveMacro (name : String)
  /-- An included file that cannot be opened. -/
  | includeNotFound (name : String)
  /-- Files that include each other without end. -/
  | includeTooDeep
  /-- A construct that is nested too deeply to be read. -/
  | nestedTooDeep
deriving DecidableEq, Repr

/-- A fault and the place where it shows. -/
structure SourceFault where
  cause : Cause
  place : Location
deriving DecidableEq, Repr

namespace Cause

/-- The name of a cause. -/
def code : Cause → String
  | .badText => "BadText"
  | .expected _ => "ExpectedToken"
  | .unexpected _ => "UnexpectedToken"
  | .unknownMacro _ => "UnknownDirective"
  | .missingArguments => "ExpectedMacroArgs"
  | .tooFewArguments => "NotEnoughMacroArgs"
  | .tooManyArguments => "TooManyActualMacroArgs"
  | .recursiveMacro _ => "RecursiveMacro"
  | .includeNotFound _ => "CouldNotOpenIncludeFile"
  | .includeTooDeep => "ExceededMaxIncludeDepth"
  | .nestedTooDeep => "NestedTooDeep"

/-- The message of a cause. -/
def message : Cause → String
  | .badText => "invalid text"
  | .expected what => s!"expected {what}"
  | .unexpected what => s!"unexpected {what}"
  | .unknownMacro name => s!"unknown macro or compiler directive '\x60{name}'"
  | .missingArguments => "expected macro arguments for function-like macro"
  | .tooFewArguments => "not enough arguments provided to macro"
  | .tooManyArguments => "too many arguments provided to function-like macro"
  | .recursiveMacro name => s!"expansion of macro '{name}' is recursive"
  | .includeNotFound name => s!"could not find or open include file '{name}'"
  | .includeTooDeep => "exceeded maximum include depth"
  | .nestedTooDeep => "language constructs are nested too deeply"

end Cause

end HdlLint.Verilog
