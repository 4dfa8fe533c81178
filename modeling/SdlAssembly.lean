import SdlAssembly.Annotated.Entities
import SdlAssembly.Annotated.LeafTypes
import SdlAssembly.Annotated.Metadata
import SdlAssembly.Annotated.Printer
import SdlAssembly.Annotation.Argument
import SdlAssembly.Annotation.EntityKey
import SdlAssembly.Annotation.LeafType
import SdlAssembly.Command.Request
import SdlAssembly.Command.Run
import SdlAssembly.Command.Words
import SdlAssembly.Config.Acceptance
import SdlAssembly.Config.Load
import SdlAssembly.Config.Options
import SdlAssembly.Console.Emoji
import SdlAssembly.Console.Emoji.Table
import SdlAssembly.Console.Handler
import SdlAssembly.Console.Handler.Expression
import SdlAssembly.Console.Handler.Token
import SdlAssembly.Console.Layout
import SdlAssembly.Console.Look
import SdlAssembly.Console.Look.Table
import SdlAssembly.Console.Markup
import SdlAssembly.Console.Message
import SdlAssembly.Console.Width
import SdlAssembly.Console.Width.Table
import SdlAssembly.Documents.Named
import SdlAssembly.Documents.Role
import SdlAssembly.Files.Load
import SdlAssembly.Files.Path
import SdlAssembly.Files.Resolve
import SdlAssembly.Files.Tree
import SdlAssembly.Grammar.Fault
import SdlAssembly.Grammar.Lexer
import SdlAssembly.Grammar.Parser.Basic
import SdlAssembly.Grammar.Parser.Document
import SdlAssembly.Grammar.Parser.Selection
import SdlAssembly.Grammar.Parser.Value
import SdlAssembly.Grammar.Printer.Document
import SdlAssembly.Grammar.Printer.Layout
import SdlAssembly.Grammar.Printer.Selection
import SdlAssembly.Grammar.Printer.Value
import SdlAssembly.Grammar.Token
import SdlAssembly.Grammar.Tree
import SdlAssembly.Log
import SdlAssembly.Main
import SdlAssembly.Model.Assembly
import SdlAssembly.Model.Build
import SdlAssembly.Model.Compose
import SdlAssembly.Model.Placeholder
import SdlAssembly.Model.Session
import SdlAssembly.Number.Binary64
import SdlAssembly.Number.Shortest
import SdlAssembly.Number.Written
import SdlAssembly.Registry
import SdlAssembly.Registry.Operation
import SdlAssembly.Report.Contents
import SdlAssembly.Report.Json
import SdlAssembly.Schema.Build
import SdlAssembly.Schema.Constant
import SdlAssembly.Schema.Document
import SdlAssembly.Schema.Fault
import SdlAssembly.Schema.Introspection
import SdlAssembly.Schema.Literal
import SdlAssembly.Schema.Printer
import SdlAssembly.Schema.Reach
import SdlAssembly.Schema.Roots
import SdlAssembly.Schema.Rules.Check
import SdlAssembly.Schema.Rules.Visit
import SdlAssembly.Schema.Standard
import SdlAssembly.Schema.Type
import SdlAssembly.Schema.Validity
import SdlAssembly.Text.Block
import SdlAssembly.Text.Case
import SdlAssembly.Text.Case.Table
import SdlAssembly.Text.Digit
import SdlAssembly.Text.Excerpt
import SdlAssembly.Text.Literal
import SdlAssembly.Text.Printable
import SdlAssembly.Text.Quoted
import SdlAssembly.Text.Ranges
import SdlAssembly.Text.Similar
import SdlAssembly.Text.Source
import SdlAssembly.Text.Space
import SdlAssembly.Text.Supply
import SdlAssembly.Text.Utf8
import SdlAssembly.Yaml.Binary
import SdlAssembly.Yaml.Cursor
import SdlAssembly.Yaml.Datum
import SdlAssembly.Yaml.Lexer
import SdlAssembly.Yaml.Names
import SdlAssembly.Yaml.Node
import SdlAssembly.Yaml.Numeral
import SdlAssembly.Yaml.Parser
import SdlAssembly.Yaml.Reading
import SdlAssembly.Yaml.Scalar
import SdlAssembly.Yaml.ScalarText
import SdlAssembly.Yaml.Tag
import SdlAssembly.Yaml.Timestamp
import SdlAssembly.Yaml.Token
import SdlAssembly.Proofs.Merge
import SdlAssembly.Proofs.RejectedKeys
import SdlAssembly.Proofs.Lexing.Lexemes
import SdlAssembly.Proofs.Lexing.Append
import SdlAssembly.Proofs.Text.Block
import SdlAssembly.Proofs.Lexing.Strings
import SdlAssembly.Proofs.Lexing.Spelling
import SdlAssembly.Proofs.Tree.Written
import SdlAssembly.Proofs.Tree.Printing
import SdlAssembly.Proofs.Parsing.Accepts
import SdlAssembly.Proofs.Parsing.Trees
import SdlAssembly.Proofs.Parsing.Reads
import SdlAssembly.Proofs.Parsing.Written
import SdlAssembly.Proofs.Parsing.Text
import SdlAssembly.Proofs.Selections
import SdlAssembly.Proofs.Lexing.Closing
import SdlAssembly.Proofs.Tree.DefinitionPrinting
import SdlAssembly.Proofs.Parsing.WrittenDocuments
import SdlAssembly.Proofs.Schema.Legible
import SdlAssembly.Proofs.Schema.Printing
import SdlAssembly.Proofs.Number.Numerals
import SdlAssembly.Proofs.Schema.Arranging
import SdlAssembly.Proofs.Schema.Following
import SdlAssembly.Proofs.Schema.Sources
import SdlAssembly.Proofs.Schema.Building
import SdlAssembly.Proofs.Schema.Listing
import SdlAssembly.Proofs.Schema.Reprinting
import SdlAssembly.Proofs.StandIns
import SdlAssembly.Proofs.PlaceholderSchemas
import SdlAssembly.Proofs.AnnotatedText
import SdlAssembly.Proofs.Parsing.ParsedDocuments
import SdlAssembly.Proofs.SoundModels
import SdlAssembly.Proofs.Composing
import SdlAssembly.Proofs.Collecting
import SdlAssembly.Proofs.Schema.Endless
import SdlAssembly.Proofs.Schema.Validating
import SdlAssembly.Proofs.Schema.Rooting
import SdlAssembly.Proofs.StrictBuilding
import SdlAssembly.Proofs.StrictModels
import SdlAssembly.Proofs.StrictRules
import SdlAssembly.Proofs.Schema.Walking
import SdlAssembly.Proofs.Schema.Literals
import SdlAssembly.Proofs.Schema.Legibility
import SdlAssembly.Proofs.Tree.Placing
import SdlAssembly.Proofs.Metadata
import SdlAssembly.Proofs.GrowingModels
import SdlAssembly.Proofs.Stopping
import SdlAssembly.Proofs.TwoHalves
import SdlAssembly.Proofs.Schema.Defaults
import SdlAssembly.Proofs.Schema.Faults
import SdlAssembly.Proofs.BuildOutcomes
import SdlAssembly.Proofs.Number.Rounding
import SdlAssembly.Proofs.Number.ReadBack
import SdlAssembly.Proofs.Schema.Fitting
import SdlAssembly.Proofs.Schema.Denoting
import SdlAssembly.Proofs.Schema.Rereading
import SdlAssembly.Proofs.Options
import SdlAssembly.Proofs.Printability
import SdlAssembly.Proofs.Command.Confinement
import SdlAssembly.Proofs.Command.Leftovers
import SdlAssembly.Proofs.Recomposing
import SdlAssembly.Proofs.Leniency
import SdlAssembly.Proofs.Repetition
import SdlAssembly.Proofs.Files.Resolving
import SdlAssembly.Proofs.FittingPatterns
import SdlAssembly.Proofs.Precedence
import SdlAssembly.Proofs.Redefinition
import SdlAssembly.Proofs.Tree.Extensions
import SdlAssembly.Proofs.Parsing.WrittenExtensions
import SdlAssembly.Proofs.AddedDirectives
import SdlAssembly.Proofs.RootAssignment
import SdlAssembly.Proofs.RepeatedScalars
import SdlAssembly.Proofs.Command.Reordering
import SdlAssembly.Proofs.Report.Reading
import SdlAssembly.Proofs.Report.Ascii
import SdlAssembly.Proofs.Command.Reports
import SdlAssembly.Proofs.Registry.Runs
import SdlAssembly.Proofs.Yaml.Keys
import SdlAssembly.Proofs.Config.Acceptance
import SdlAssembly.Proofs.Config.Loading
