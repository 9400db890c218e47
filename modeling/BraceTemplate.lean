import BraceTemplate.Calendar.Date
import BraceTemplate.Calendar.Format
import BraceTemplate.Calendar.Reader
import BraceTemplate.Check
import BraceTemplate.Check.Component
import BraceTemplate.Check.Escaping
import BraceTemplate.Check.FilterChain
import BraceTemplate.Check.Header
import BraceTemplate.Check.Names
import BraceTemplate.Checker
import BraceTemplate.Checker.Operation
import BraceTemplate.Cli.Arguments
import BraceTemplate.Cli.Listing
import BraceTemplate.Cli.Path
import BraceTemplate.Cli.Run
import BraceTemplate.Compile
import BraceTemplate.Compile.Options
import BraceTemplate.Diagnostic
import BraceTemplate.Diagnostic.Code
import BraceTemplate.Diagnostic.Excerpt
import BraceTemplate.Diagnostic.Severity
import BraceTemplate.Document
import BraceTemplate.Document.Builder
import BraceTemplate.Document.Event
import BraceTemplate.Document.Failure
import BraceTemplate.Document.Json
import BraceTemplate.Double
import BraceTemplate.Double.Decimal
import BraceTemplate.Double.Shortest
import BraceTemplate.Expression
import BraceTemplate.Expression.Path
import BraceTemplate.Expression.Spelling
import BraceTemplate.Filter
import BraceTemplate.Formats
import BraceTemplate.Formats.Standard
import BraceTemplate.Json.Number
import BraceTemplate.Json.Reader
import BraceTemplate.Json.Record
import BraceTemplate.Json.Tree
import BraceTemplate.Json.Value
import BraceTemplate.Json.Writer
import BraceTemplate.Main
import BraceTemplate.Outcome
import BraceTemplate.Pattern
import BraceTemplate.Pattern.Property
import BraceTemplate.Pattern.Reader
import BraceTemplate.Position
import BraceTemplate.Registry
import BraceTemplate.Registry.Builtin
import BraceTemplate.Registry.Catalog
import BraceTemplate.Registry.Component
import BraceTemplate.Registry.Export
import BraceTemplate.Registry.FilterSpec
import BraceTemplate.Registry.Manifest
import BraceTemplate.Registry.Platform
import BraceTemplate.Registry.Profile
import BraceTemplate.Registry.Store
import BraceTemplate.Schema
import BraceTemplate.Schema.Check
import BraceTemplate.Schema.TypeExpr
import BraceTemplate.Table
import BraceTemplate.Text.Case
import BraceTemplate.Text.CaseTable
import BraceTemplate.Text.CategoryTable
import BraceTemplate.Text.Class
import BraceTemplate.Text.ClassTable
import BraceTemplate.Text.Integer
import BraceTemplate.Text.Quoted
import BraceTemplate.Text.Ranges
import BraceTemplate.Text.Trim
import BraceTemplate.Text.Width
import BraceTemplate.Text.WidthTable
import BraceTemplate.Token
import BraceTemplate.Token.Json
import BraceTemplate.Token.Lexer
import BraceTemplate.Toml
import BraceTemplate.Url
import BraceTemplate.Url.Host
import BraceTemplate.Url.Percent
import BraceTemplate.Proofs.Lexing.Lexes
import BraceTemplate.Proofs.Lexing.Strings
import BraceTemplate.Proofs.Lexing.Words
import BraceTemplate.Proofs.Lexing.Floats
import BraceTemplate.Proofs.Lexing.Lexemes
import BraceTemplate.Proofs.Lexing.Tiles
import BraceTemplate.Proofs.Parsing.Grammar
import BraceTemplate.Proofs.Parsing.Preorder
import BraceTemplate.Proofs.Printing.RoundTrip
import BraceTemplate.Proofs.Checking.Acceptance
import BraceTemplate.Proofs.Checking.Conformance
import BraceTemplate.Proofs.Blanks
import BraceTemplate.Proofs.Reading.Expressions
import BraceTemplate.Proofs.Reading.Sites
import BraceTemplate.Proofs.Lines
import BraceTemplate.Proofs.Checking.Located
import BraceTemplate.Proofs.Checking.Memory
import BraceTemplate.Proofs.Parsing.Groups
import BraceTemplate.Proofs.Parsing.Balance
import BraceTemplate.Proofs.Parsing.Unclosed
import BraceTemplate.Proofs.Moved
import BraceTemplate.Proofs.Parsing.Readers
import BraceTemplate.Proofs.Lexing.Seam
import BraceTemplate.Proofs.Parsing.Compose
import BraceTemplate.Proofs.Checking.Options
import BraceTemplate.Proofs.Registry.Merging
import BraceTemplate.Proofs.Filters.Markup
import BraceTemplate.Proofs.Checking.Settled
import BraceTemplate.Proofs.Parsing.Headers
import BraceTemplate.Proofs.Parsing.Declarations
import BraceTemplate.Proofs.Registry.Overriding
import BraceTemplate.Proofs.Registry.Naming
import BraceTemplate.Proofs.Checking.Offers
import BraceTemplate.Proofs.Lexing.Positions
import BraceTemplate.Proofs.Reading.Paths
import BraceTemplate.Proofs.Reading.Heads
import BraceTemplate.Proofs.Registry.Reloading
import BraceTemplate.Proofs.Doubles
import BraceTemplate.Proofs.Checking.Coercion
import BraceTemplate.Proofs.Checking.Integers
import BraceTemplate.Proofs.Lexing.Numerals
import BraceTemplate.Proofs.Checking.Quoting
import BraceTemplate.Proofs.Checking.Agreement
import BraceTemplate.Proofs.Filters.Binding
import BraceTemplate.Proofs.Checking.Reports
import BraceTemplate.Proofs.Checking.Recompiling
import BraceTemplate.Proofs.Checking.Addresses
import BraceTemplate.Proofs.Parsing.SiteOrder
import BraceTemplate.Proofs.Filters.Shortening
import BraceTemplate.Proofs.Filters.Entities
import BraceTemplate.Proofs.Filters.Schemes
import BraceTemplate.Proofs.Json.Records
import BraceTemplate.Proofs.Registry.Rereading
import BraceTemplate.Proofs.Filters.Stripping
import BraceTemplate.Proofs.Filters.Slugs
import BraceTemplate.Proofs.Parsing.Ends
