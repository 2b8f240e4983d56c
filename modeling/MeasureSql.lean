import MeasureSql.Dax.Category
import MeasureSql.Dax.Cursor
import MeasureSql.Dax.Expr
import MeasureSql.Dax.Keyword
import MeasureSql.Dax.Lexer
import MeasureSql.Dax.Operator
import MeasureSql.Dax.Parser
import MeasureSql.Dax.Printer
import MeasureSql.Dax.Recognition
import MeasureSql.Dax.Source
import MeasureSql.Dax.Spelling
import MeasureSql.Dax.Token
import MeasureSql.FilterContext
import MeasureSql.Json.Basic
import MeasureSql.Json.Printer
import MeasureSql.Json.Reader
import MeasureSql.Json.Record
import MeasureSql.Number.Double
import MeasureSql.Number.Layout
import MeasureSql.Number.Numeral
import MeasureSql.Number.Shortest
import MeasureSql.Pattern.Basic
import MeasureSql.Pattern.Catalog
import MeasureSql.Pattern.Document
import MeasureSql.Pattern.Library
import MeasureSql.Pattern.Template
import MeasureSql.Proofs.Dax.Acceptance
import MeasureSql.Proofs.Dax.Bound
import MeasureSql.Proofs.Dax.Children
import MeasureSql.Proofs.Dax.Completeness
import MeasureSql.Proofs.Dax.Cursor
import MeasureSql.Proofs.Dax.Cutting
import MeasureSql.Proofs.Dax.Definition
import MeasureSql.Proofs.Dax.Display
import MeasureSql.Proofs.Dax.Escapes
import MeasureSql.Proofs.Dax.Faithful
import MeasureSql.Proofs.Dax.Faithfulness
import MeasureSql.Proofs.Dax.Following
import MeasureSql.Proofs.Dax.Grammar
import MeasureSql.Proofs.Dax.Inlining
import MeasureSql.Proofs.Dax.Layout
import MeasureSql.Proofs.Dax.LetterCase
import MeasureSql.Proofs.Dax.Lexeme
import MeasureSql.Proofs.Dax.Obstacle
import MeasureSql.Proofs.Dax.Pieces
import MeasureSql.Proofs.Dax.Placeless
import MeasureSql.Proofs.Dax.Positions
import MeasureSql.Proofs.Dax.Redisplay
import MeasureSql.Proofs.Dax.Safety
import MeasureSql.Proofs.Dax.Sensitive
import MeasureSql.Proofs.Dax.Soundness
import MeasureSql.Proofs.Dax.Sourced
import MeasureSql.Proofs.Dax.Steady
import MeasureSql.Proofs.Dax.Tiling
import MeasureSql.Proofs.Dax.Truncation
import MeasureSql.Proofs.FilterContext
import MeasureSql.Proofs.FilterHistory
import MeasureSql.Proofs.Json.ReadBack
import MeasureSql.Proofs.Keyed
import MeasureSql.Proofs.Number.Digits
import MeasureSql.Proofs.Number.Plain
import MeasureSql.Proofs.Number.Rounding
import MeasureSql.Proofs.Number.Shortest
import MeasureSql.Proofs.Pattern.Additions
import MeasureSql.Proofs.Pattern.Arguments
import MeasureSql.Proofs.Pattern.Binding
import MeasureSql.Proofs.Pattern.Catalog
import MeasureSql.Proofs.Pattern.Form
import MeasureSql.Proofs.Pattern.Stretches
import MeasureSql.Proofs.Pattern.Template
import MeasureSql.Proofs.Pattern.Visibility
import MeasureSql.Proofs.Render.Alike
import MeasureSql.Proofs.Render.Assurance
import MeasureSql.Proofs.Render.Clear
import MeasureSql.Proofs.Render.ClearFilters
import MeasureSql.Proofs.Render.ClearRules
import MeasureSql.Proofs.Render.Comments
import MeasureSql.Proofs.Render.Course
import MeasureSql.Proofs.Render.Definition
import MeasureSql.Proofs.Render.Disguise
import MeasureSql.Proofs.Render.Echo
import MeasureSql.Proofs.Render.EchoFilters
import MeasureSql.Proofs.Render.EchoRules
import MeasureSql.Proofs.Render.FilterKeys
import MeasureSql.Proofs.Render.FilterTables
import MeasureSql.Proofs.Render.FirstColumn
import MeasureSql.Proofs.Render.Frame
import MeasureSql.Proofs.Render.Grouping
import MeasureSql.Proofs.Render.InStep
import MeasureSql.Proofs.Render.Integers
import MeasureSql.Proofs.Render.Isolation
import MeasureSql.Proofs.Render.LetterCase
import MeasureSql.Proofs.Render.Levels
import MeasureSql.Proofs.Render.Listed
import MeasureSql.Proofs.Render.Literal
import MeasureSql.Proofs.Render.Mentioned
import MeasureSql.Proofs.Render.Modifiers
import MeasureSql.Proofs.Render.Moves
import MeasureSql.Proofs.Render.Nesting
import MeasureSql.Proofs.Render.Nodes
import MeasureSql.Proofs.Render.Outcome
import MeasureSql.Proofs.Render.Parts
import MeasureSql.Proofs.Render.Predicates
import MeasureSql.Proofs.Render.Query
import MeasureSql.Proofs.Render.Redundant
import MeasureSql.Proofs.Render.Reread
import MeasureSql.Proofs.Render.RowContext
import MeasureSql.Proofs.Render.Rules
import MeasureSql.Proofs.Render.Shown
import MeasureSql.Proofs.Render.ShownFilters
import MeasureSql.Proofs.Render.Sources
import MeasureSql.Proofs.Render.Splicing
import MeasureSql.Proofs.Render.Totality
import MeasureSql.Proofs.Render.Transparency
import MeasureSql.Proofs.Render.Vouching
import MeasureSql.Proofs.Render.Where
import MeasureSql.Proofs.Render.Written
import MeasureSql.Proofs.Schema.Clauses
import MeasureSql.Proofs.Schema.Columns
import MeasureSql.Proofs.Schema.Document
import MeasureSql.Proofs.Schema.Forfeit
import MeasureSql.Proofs.Schema.JoinPath
import MeasureSql.Proofs.Schema.JoinPlan
import MeasureSql.Proofs.Schema.Joins
import MeasureSql.Proofs.Schema.Lookup
import MeasureSql.Proofs.Schema.OnTheWay
import MeasureSql.Proofs.Schema.Spelling
import MeasureSql.Proofs.Settings.Expansion
import MeasureSql.Proofs.Sql.Composed
import MeasureSql.Proofs.Sql.Conjunction
import MeasureSql.Proofs.Sql.Parentheses
import MeasureSql.Proofs.Sql.Quoting
import MeasureSql.Proofs.Sql.Reader
import MeasureSql.Proofs.Sql.Signs
import MeasureSql.Proofs.Text.Capitals
import MeasureSql.Proofs.Text.Classes
import MeasureSql.Proofs.Text.LetterCase
import MeasureSql.Proofs.Validation.Accepted
import MeasureSql.Proofs.Validation.Backslash
import MeasureSql.Proofs.Validation.Balance
import MeasureSql.Proofs.Validation.Blanks
import MeasureSql.Proofs.Validation.Endings
import MeasureSql.Proofs.Validation.Literals
import MeasureSql.Proofs.Validation.Parentheses
import MeasureSql.Proofs.Validation.Partners
import MeasureSql.Render.Call
import MeasureSql.Render.Confidence
import MeasureSql.Render.Engine
import MeasureSql.Render.Expr
import MeasureSql.Render.Names
import MeasureSql.Render.State
import MeasureSql.Render.Subquery
import MeasureSql.Schema.Basic
import MeasureSql.Schema.Column
import MeasureSql.Schema.Document
import MeasureSql.Schema.JoinPath
import MeasureSql.Schema.Relationship
import MeasureSql.Schema.Retail
import MeasureSql.Schema.Summary
import MeasureSql.Schema.Table
import MeasureSql.Settings.Basic
import MeasureSql.Settings.Reference
import MeasureSql.Settings.Surroundings
import MeasureSql.Sql.Acceptance
import MeasureSql.Sql.Dialect
import MeasureSql.Sql.Grammar.Expression
import MeasureSql.Sql.Grammar.Phrase
import MeasureSql.Sql.Grammar.Query
import MeasureSql.Sql.Grammar.Rule
import MeasureSql.Sql.Lexeme
import MeasureSql.Sql.Quoting
import MeasureSql.Text.Alphabetic
import MeasureSql.Text.Blank
import MeasureSql.Text.CaseMap
import MeasureSql.Text.CaseTable
import MeasureSql.Text.CharSet
import MeasureSql.Text.Digit
import MeasureSql.Text.Identifier
import MeasureSql.Text.Printable
import MeasureSql.Text.Quoted
import MeasureSql.Text.WordSearch
import MeasureSql.Toml.Basic
import MeasureSql.Toml.Quoted
import MeasureSql.Toml.Reader
import MeasureSql.Toml.Scalar
import MeasureSql.Toml.Tree
import MeasureSql.Validation.Balance
import MeasureSql.Validation.Issue
import MeasureSql.Validation.Report
import MeasureSql.Validation.Wording
