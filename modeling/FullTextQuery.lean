import FullTextQuery.Binary64.Basic
import FullTextQuery.Binary64.Shortest
import FullTextQuery.Binary64.Text
import FullTextQuery.Database.Basic
import FullTextQuery.Database.Cache
import FullTextQuery.Database.Cursor
import FullTextQuery.Database.Setup
import FullTextQuery.Decimal.Integer
import FullTextQuery.Decimal.Scientific
import FullTextQuery.Error
import FullTextQuery.Extension.Basic
import FullTextQuery.Extension.Search
import FullTextQuery.Json.Basic
import FullTextQuery.Json.Reader
import FullTextQuery.Model
import FullTextQuery.NameMap
import FullTextQuery.Plan.Hook
import FullTextQuery.Plan.Record
import FullTextQuery.Plan.Run
import FullTextQuery.Plan.RunContext
import FullTextQuery.Plan.Steps
import FullTextQuery.Planner.Basic
import FullTextQuery.Planner.Draft
import FullTextQuery.Planner.Plan
import FullTextQuery.Proofs.Binary64.Literal
import FullTextQuery.Proofs.Binary64.Rounding
import FullTextQuery.Proofs.Binary64.Shortest
import FullTextQuery.Proofs.Database.Cache
import FullTextQuery.Proofs.Database.Enumeration
import FullTextQuery.Proofs.Database.RunOrder
import FullTextQuery.Proofs.Decimal.Numeral
import FullTextQuery.Proofs.Json.Grammar
import FullTextQuery.Proofs.Json.Reading
import FullTextQuery.Proofs.Meaning.AcceptedRuns
import FullTextQuery.Proofs.Meaning.Basic
import FullTextQuery.Proofs.Meaning.Columns
import FullTextQuery.Proofs.Meaning.Resolving
import FullTextQuery.Proofs.Meaning.Run
import FullTextQuery.Proofs.Meaning.Scalars
import FullTextQuery.Proofs.Meaning.Selection
import FullTextQuery.Proofs.Model.Built
import FullTextQuery.Proofs.Model.FirstValid
import FullTextQuery.Proofs.NameMap
import FullTextQuery.Proofs.Outcome
import FullTextQuery.Proofs.Plan.Bindings
import FullTextQuery.Proofs.Plan.NamedParameters
import FullTextQuery.Proofs.Plan.ValueSets
import FullTextQuery.Proofs.Planner.Acceptance
import FullTextQuery.Proofs.Planner.AlikeRuns
import FullTextQuery.Proofs.Planner.AlikeStatements
import FullTextQuery.Proofs.Planner.ColumnNames
import FullTextQuery.Proofs.Planner.Draft
import FullTextQuery.Proofs.Planner.ExchangedOperands
import FullTextQuery.Proofs.Planner.FixedParameters
import FullTextQuery.Proofs.Planner.JoinedFilters
import FullTextQuery.Proofs.Planner.ListedParameters
import FullTextQuery.Proofs.Planner.LoweredQuery
import FullTextQuery.Proofs.Planner.PlainStatement
import FullTextQuery.Proofs.Planner.Plan
import FullTextQuery.Proofs.Planner.RelatedDrafts
import FullTextQuery.Proofs.Planner.RepeatedSearch
import FullTextQuery.Proofs.Planner.Rewriting
import FullTextQuery.Proofs.Planner.SearchText
import FullTextQuery.Proofs.Planner.SingleTest
import FullTextQuery.Proofs.Planner.Statement
import FullTextQuery.Proofs.Planner.WrittenStatements
import FullTextQuery.Proofs.Pointwise
import FullTextQuery.Proofs.Query.Canonical
import FullTextQuery.Proofs.Query.CanonicalExpressions
import FullTextQuery.Proofs.Query.CanonicalOperands
import FullTextQuery.Proofs.Query.CanonicalQueries
import FullTextQuery.Proofs.Query.CanonicalUnits
import FullTextQuery.Proofs.Query.Displayed
import FullTextQuery.Proofs.Query.DisplayedAmbiguity
import FullTextQuery.Proofs.Query.ErrorPlaces
import FullTextQuery.Proofs.Query.Exchange
import FullTextQuery.Proofs.Query.InUnits
import FullTextQuery.Proofs.Query.Layout
import FullTextQuery.Proofs.Query.Matching
import FullTextQuery.Proofs.Query.MentionedNames
import FullTextQuery.Proofs.Query.Nodes
import FullTextQuery.Proofs.Query.ParsedNames
import FullTextQuery.Proofs.Query.Positions
import FullTextQuery.Proofs.Query.Relaid
import FullTextQuery.Proofs.Query.RelaidExpressions
import FullTextQuery.Proofs.Query.RelaidOutcomes
import FullTextQuery.Proofs.Query.RelaidQueries
import FullTextQuery.Proofs.Query.RelaidUnits
import FullTextQuery.Proofs.Query.Related
import FullTextQuery.Proofs.Query.Replacement
import FullTextQuery.Proofs.Query.Scanners
import FullTextQuery.Proofs.Query.Scope
import FullTextQuery.Proofs.Query.Units
import FullTextQuery.Proofs.RelatedOutcomes
import FullTextQuery.Proofs.Relational.Accounting
import FullTextQuery.Proofs.Relational.ExchangedImages
import FullTextQuery.Proofs.Relational.FixedImages
import FullTextQuery.Proofs.Relational.Image
import FullTextQuery.Proofs.Relational.ImageParts
import FullTextQuery.Proofs.Relational.Lowering
import FullTextQuery.Proofs.Relational.Nodes
import FullTextQuery.Proofs.Relational.Propagation
import FullTextQuery.Proofs.Relational.Recording
import FullTextQuery.Proofs.Relational.Resolution
import FullTextQuery.Proofs.Service.BeginningSearch
import FullTextQuery.Proofs.Service.Decoding
import FullTextQuery.Proofs.Service.IndexUrl
import FullTextQuery.Proofs.Service.MemorySearch
import FullTextQuery.Proofs.Sql.AlikeExpressions
import FullTextQuery.Proofs.Sql.Grouping
import FullTextQuery.Proofs.Sql.Parameters
import FullTextQuery.Proofs.Sql.Parsing
import FullTextQuery.Proofs.Sql.Regrouping
import FullTextQuery.Proofs.Sql.Scanning
import FullTextQuery.Proofs.Sql.StatementReading
import FullTextQuery.Proofs.Sql.StatementSelection
import FullTextQuery.Proofs.Sql.StatementTokens
import FullTextQuery.Proofs.Sql.Tokens
import FullTextQuery.Proofs.Sql.Writing
import FullTextQuery.Proofs.Store.Alike
import FullTextQuery.Proofs.Store.AlikeSearches
import FullTextQuery.Proofs.Store.AlikeSelections
import FullTextQuery.Proofs.Store.AlikeTerms
import FullTextQuery.Proofs.Store.Evaluation
import FullTextQuery.Proofs.Store.Failures
import FullTextQuery.Proofs.Store.Membership
import FullTextQuery.Proofs.Store.Names
import FullTextQuery.Proofs.Store.Rows
import FullTextQuery.Proofs.Syntax.Agreement
import FullTextQuery.Proofs.Syntax.Expressions
import FullTextQuery.Proofs.Syntax.Layout
import FullTextQuery.Proofs.Syntax.Lexemes
import FullTextQuery.Proofs.Syntax.Literals
import FullTextQuery.Proofs.Syntax.LoneExpressions
import FullTextQuery.Proofs.Syntax.Peg
import FullTextQuery.Proofs.Syntax.Queries
import FullTextQuery.Proofs.Syntax.Rules
import FullTextQuery.Proofs.Syntax.Settling
import FullTextQuery.Proofs.Syntax.Trees
import FullTextQuery.Proofs.Text.Run
import FullTextQuery.Proofs.Text.Utf8
import FullTextQuery.Proofs.Text.Words
import FullTextQuery.Proofs.Url.Segments
import FullTextQuery.Proofs.Value.Key
import FullTextQuery.Query.Basic
import FullTextQuery.Query.Display
import FullTextQuery.Query.Expr
import FullTextQuery.Query.Grammar
import FullTextQuery.Query.Lexeme
import FullTextQuery.Query.Matcher
import FullTextQuery.Query.Parser
import FullTextQuery.Query.Scope
import FullTextQuery.Relational.Expr
import FullTextQuery.Relational.Lowering
import FullTextQuery.Relational.PlannedSearch
import FullTextQuery.Relational.Resolution
import FullTextQuery.Relational.Statement
import FullTextQuery.Service.Basic
import FullTextQuery.Service.Config
import FullTextQuery.Service.Http
import FullTextQuery.Service.Memory
import FullTextQuery.Service.Response
import FullTextQuery.Service.Scripted
import FullTextQuery.Settings.Basic
import FullTextQuery.Settings.LogFilter
import FullTextQuery.Settings.Path
import FullTextQuery.Settings.Source
import FullTextQuery.Sql.Reader
import FullTextQuery.Sql.Term
import FullTextQuery.Sql.Token
import FullTextQuery.Sql.Writer
import FullTextQuery.Store.Cell
import FullTextQuery.Store.Comparison
import FullTextQuery.Store.Function
import FullTextQuery.Store.Pattern
import FullTextQuery.Store.Scalar
import FullTextQuery.Store.Selection
import FullTextQuery.Store.Table
import FullTextQuery.Text.Alphanumeric
import FullTextQuery.Text.Blank
import FullTextQuery.Text.CodeRange
import FullTextQuery.Text.Hexadecimal
import FullTextQuery.Text.Lowercase
import FullTextQuery.Text.Utf8
import FullTextQuery.Toml.Moment
import FullTextQuery.Toml.Number
import FullTextQuery.Toml.Quoted
import FullTextQuery.Toml.Reader
import FullTextQuery.Toml.Table
import FullTextQuery.Url.Basic
import FullTextQuery.Url.DomainName
import FullTextQuery.Url.Host
import FullTextQuery.Url.ParseError
import FullTextQuery.Url.Parser
import FullTextQuery.Url.Percent
import FullTextQuery.Url.Punycode
import FullTextQuery.Value
import FullTextQuery.Value.Key
