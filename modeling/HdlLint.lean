import HdlLint.CommandLine.Flag
import HdlLint.CommandLine.Options
import HdlLint.CommandLine.Usage
import HdlLint.CommandLine.Word
import HdlLint.Config.Basic
import HdlLint.Config.Document
import HdlLint.Config.Exclude
import HdlLint.Config.File
import HdlLint.Config.Search
import HdlLint.Decimal.Binary64
import HdlLint.Define
import HdlLint.DefineThread
import HdlLint.Demand
import HdlLint.Diagnostic
import HdlLint.Environment
import HdlLint.Fault
import HdlLint.FileSystem
import HdlLint.Filelist
import HdlLint.IncludeUse
import HdlLint.Linter
import HdlLint.MacroUse
import HdlLint.Main
import HdlLint.OrderedTable
import HdlLint.Path
import HdlLint.Pattern
import HdlLint.Pattern.Basic
import HdlLint.Pattern.Matcher
import HdlLint.Pattern.Reader
import HdlLint.Pattern.Reader.Basic
import HdlLint.Pattern.Reader.Character
import HdlLint.Pattern.Reader.Group
import HdlLint.Plugin
import HdlLint.Program
import HdlLint.Proofs.Define.Line
import HdlLint.Proofs.DefineTable.Directive
import HdlLint.Proofs.DefineTable.Thread
import HdlLint.Proofs.FileSystem.Write
import HdlLint.Proofs.Filelist.Inline
import HdlLint.Proofs.Filelist.Merge
import HdlLint.Proofs.Filelist.Reference
import HdlLint.Proofs.OrderedTable.Update
import HdlLint.Proofs.Run.Step
import HdlLint.Proofs.Run.Threading
import HdlLint.Proofs.Syntax.Preorder
import HdlLint.Proofs.Text.Front
import HdlLint.Proofs.Text.Lines
import HdlLint.Proofs.Text.Strip
import HdlLint.Proofs.Text.Utf8
import HdlLint.Proofs.TokenStream.Body
import HdlLint.Proofs.TokenStream.Definition
import HdlLint.Proofs.TokenStream.Grammar
import HdlLint.Proofs.TokenStream.Upcoming
import HdlLint.Proofs.Verilog.Lexes
import HdlLint.Proofs.Verilog.Spelling
import HdlLint.Proofs.Verilog.Trivia
import HdlLint.Proofs.Verilog.Word
import HdlLint.Report
import HdlLint.Rule.Basic
import HdlLint.Rule.BuiltIn
import HdlLint.Run
import HdlLint.Snippet
import HdlLint.Source
import HdlLint.SourceError
import HdlLint.Syntax.Location
import HdlLint.Syntax.Parts
import HdlLint.Syntax.Tree
import HdlLint.Syntax.Walk
import HdlLint.Text.Blank
import HdlLint.Text.Case
import HdlLint.Text.Escape
import HdlLint.Text.Identifier
import HdlLint.Text.Printable
import HdlLint.Text.Quoted
import HdlLint.Text.Split
import HdlLint.Text.Utf8
import HdlLint.Text.Word
import HdlLint.Toml.Document
import HdlLint.Toml.Element
import HdlLint.Toml.Moment
import HdlLint.Toml.Number
import HdlLint.Toml.Table
import HdlLint.Toml.Text
import HdlLint.Value
import HdlLint.Verilog.Grammar
import HdlLint.Verilog.Grammar.Class
import HdlLint.Verilog.Grammar.Cursor
import HdlLint.Verilog.Grammar.Declaration
import HdlLint.Verilog.Grammar.Expression
import HdlLint.Verilog.Grammar.Generate
import HdlLint.Verilog.Grammar.Instance
import HdlLint.Verilog.Grammar.Lookahead
import HdlLint.Verilog.Grammar.Member
import HdlLint.Verilog.Grammar.Operator
import HdlLint.Verilog.Grammar.Port
import HdlLint.Verilog.Grammar.Property
import HdlLint.Verilog.Grammar.Routine
import HdlLint.Verilog.Grammar.Scope
import HdlLint.Verilog.Grammar.Statement
import HdlLint.Verilog.Grammar.Timing
import HdlLint.Verilog.Lexeme
import HdlLint.Verilog.Lexer
import HdlLint.Verilog.NumberBase
import HdlLint.Verilog.Reader
import HdlLint.Verilog.SourceFault
import HdlLint.Verilog.TokenStream
import HdlLint.Verilog.TokenStream.Argument
import HdlLint.Verilog.TokenStream.Basic
import HdlLint.Verilog.TokenStream.Conditional
import HdlLint.Verilog.TokenStream.Definition
import HdlLint.Verilog.TokenStream.Expansion
import HdlLint.Verilog.TokenStream.Inclusion
import HdlLint.Verilog.TokenStream.Setting
import HdlLint.Proofs.Define.CanPass
import HdlLint.Proofs.Linter.Registry
import HdlLint.Proofs.Linter.Operations
import HdlLint.Proofs.Linter.Events
import HdlLint.Proofs.Linter.Lint
import HdlLint.Proofs.Linter.Part
import HdlLint.Proofs.Run.FewerRules
import HdlLint.Proofs.Toml.Text
import HdlLint.Proofs.Toml.Element
import HdlLint.Proofs.Toml.Document
import HdlLint.Proofs.Config.Written
import HdlLint.Proofs.Config.RoundTrip
import HdlLint.Proofs.Define.HandOver
import HdlLint.Proofs.Diagnostic.MacroUse
import HdlLint.Proofs.Diagnostic.Quotation
import HdlLint.Proofs.DefineTable.Sequence
import HdlLint.Proofs.Filelist.Reading
import HdlLint.Proofs.Filelist.Chain
import HdlLint.Proofs.Program.Inputs
import HdlLint.Proofs.Program.Stages
import HdlLint.Proofs.Program.Exit
import HdlLint.Proofs.Report.Snippet
import HdlLint.Proofs.Report.Written
import HdlLint.Proofs.Run.Stop
import HdlLint.Proofs.Run.Verdict
import HdlLint.Proofs.Text.Occurs
import HdlLint.Proofs.FileSystem.Name
import HdlLint.Proofs.Filelist.Route
import HdlLint.Proofs.Syntax.Address
import HdlLint.Proofs.Filelist.Termination
import HdlLint.Proofs.Define.StartingName
import HdlLint.Proofs.Program.Predefines
import HdlLint.Proofs.Linter.SingleRule
import HdlLint.Proofs.Rule.GenerateIf
import HdlLint.Proofs.Text.Escape
import HdlLint.Proofs.Environment.Expansion
import HdlLint.Proofs.Diagnostic.Outcome
import HdlLint.Proofs.Rule.MissingPart
import HdlLint.Proofs.Toml.DistinctNames
import HdlLint.Proofs.OrderedTable.Lookup
import HdlLint.Proofs.Config.Settings
import HdlLint.Proofs.Config.Accepted
import HdlLint.Proofs.Config.Rearranged
import HdlLint.Proofs.Report.Mark
import HdlLint.Proofs.Syntax.Span
import HdlLint.Proofs.Diagnostic.IncludeUse
import HdlLint.Proofs.Config.Nearest
import HdlLint.Proofs.FileSystem.Change
import HdlLint.Proofs.Program.Configuration
import HdlLint.Proofs.Filelist.Noise
import HdlLint.Proofs.Filelist.NoisierFiles
import HdlLint.Proofs.Filelist.Monoid
import HdlLint.Proofs.Text.Replacement
import HdlLint.Proofs.Text.SourceLines
import HdlLint.Proofs.FileSystem.SourceLine
