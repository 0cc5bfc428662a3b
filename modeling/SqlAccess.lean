import SqlAccess.Ddl.Attribute
import SqlAccess.Ddl.Clause
import SqlAccess.Ddl.Line
import SqlAccess.Ddl.Reader
import SqlAccess.Ddl.Statement
import SqlAccess.Ddl.Token
import SqlAccess.Decimal.Layout
import SqlAccess.Decimal.Nearest
import SqlAccess.Decimal.Reader
import SqlAccess.Decimal.Shortest
import SqlAccess.Dialect.Basic
import SqlAccess.Dialect.Mutation
import SqlAccess.Dialect.Registry
import SqlAccess.Error
import SqlAccess.Execution.Dsn
import SqlAccess.Execution.Executor
import SqlAccess.Execution.Pool
import SqlAccess.Execution.QueryLog
import SqlAccess.Execution.Recorder
import SqlAccess.Identifier
import SqlAccess.Literal
import SqlAccess.Migration.Basic
import SqlAccess.Migration.Error
import SqlAccess.Migration.History
import SqlAccess.Migration.Report
import SqlAccess.Migration.Runner
import SqlAccess.Migration.Set
import SqlAccess.Params.Basic
import SqlAccess.Params.Positional
import SqlAccess.Predicate.Basic
import SqlAccess.Predicate.Build
import SqlAccess.Predicate.Operator
import SqlAccess.Predicate.Render
import SqlAccess.Proofs.Ddl.Attributes
import SqlAccess.Proofs.Ddl.ClosingLine
import SqlAccess.Proofs.Ddl.ColumnLine
import SqlAccess.Proofs.Ddl.ColumnScan
import SqlAccess.Proofs.Ddl.Declared
import SqlAccess.Proofs.Ddl.ExpressionDefault
import SqlAccess.Proofs.Ddl.Grammar
import SqlAccess.Proofs.Ddl.KeyLine
import SqlAccess.Proofs.Ddl.Layout
import SqlAccess.Proofs.Ddl.Legible
import SqlAccess.Proofs.Ddl.ListColumn
import SqlAccess.Proofs.Ddl.NotNull
import SqlAccess.Proofs.Ddl.Positional
import SqlAccess.Proofs.Ddl.PrimaryOrder
import SqlAccess.Proofs.Ddl.Quoting
import SqlAccess.Proofs.Ddl.ReadBack
import SqlAccess.Proofs.Ddl.Recorded
import SqlAccess.Proofs.Ddl.Regenerated
import SqlAccess.Proofs.Ddl.Reprint
import SqlAccess.Proofs.Ddl.RoundTrip
import SqlAccess.Proofs.Ddl.Shape
import SqlAccess.Proofs.Ddl.TableScan
import SqlAccess.Proofs.Ddl.Types
import SqlAccess.Proofs.Ddl.ValueList
import SqlAccess.Proofs.Decimal
import SqlAccess.Proofs.Dialect.Enclosed
import SqlAccess.Proofs.Dialect.Spelling
import SqlAccess.Proofs.Execution.Exchange
import SqlAccess.Proofs.Identifier
import SqlAccess.Proofs.Mention
import SqlAccess.Proofs.Migration.DryRun
import SqlAccess.Proofs.Migration.Execution
import SqlAccess.Proofs.Migration.Fallback
import SqlAccess.Proofs.Migration.History
import SqlAccess.Proofs.Migration.Identifier
import SqlAccess.Proofs.Migration.Journal
import SqlAccess.Proofs.Migration.Kept
import SqlAccess.Proofs.Migration.Phases
import SqlAccess.Proofs.Migration.Resuming
import SqlAccess.Proofs.Migration.Selection
import SqlAccess.Proofs.Migration.Sends
import SqlAccess.Proofs.Migration.Set
import SqlAccess.Proofs.Migration.Truthful
import SqlAccess.Proofs.Params.Fragment
import SqlAccess.Proofs.Params.Growth
import SqlAccess.Proofs.Params.Reference
import SqlAccess.Proofs.Params.Region
import SqlAccess.Proofs.Params.Search
import SqlAccess.Proofs.Params.Writes
import SqlAccess.Proofs.Predicate.Again
import SqlAccess.Proofs.Predicate.Chain
import SqlAccess.Proofs.Predicate.Composed
import SqlAccess.Proofs.Predicate.Emptiness
import SqlAccess.Proofs.Predicate.Expression
import SqlAccess.Proofs.Predicate.Fields
import SqlAccess.Proofs.Predicate.Form
import SqlAccess.Proofs.Predicate.Lexeme
import SqlAccess.Proofs.Predicate.Listing
import SqlAccess.Proofs.Predicate.Misfit
import SqlAccess.Proofs.Predicate.Operands
import SqlAccess.Proofs.Predicate.Reached
import SqlAccess.Proofs.Predicate.Reading
import SqlAccess.Proofs.Predicate.Runs
import SqlAccess.Proofs.Predicate.Tested
import SqlAccess.Proofs.Predicate.Values
import SqlAccess.Proofs.Query.Active
import SqlAccess.Proofs.Query.Guard
import SqlAccess.Proofs.Query.Keyed
import SqlAccess.Proofs.Query.Meaning
import SqlAccess.Proofs.Query.Ordering
import SqlAccess.Proofs.Query.Pages
import SqlAccess.Proofs.Query.Paging
import SqlAccess.Proofs.Query.Positional
import SqlAccess.Proofs.Query.Rebinding
import SqlAccess.Proofs.Query.Statement
import SqlAccess.Proofs.Schema.Declaration
import SqlAccess.Proofs.Schema.Key
import SqlAccess.Proofs.Schema.Made
import SqlAccess.Proofs.Schema.Table
import SqlAccess.Proofs.Text.Cut
import SqlAccess.Proofs.Text.Letter
import SqlAccess.Proofs.Text.Spaced
import SqlAccess.Proofs.Text.Uppercase
import SqlAccess.Query.Basic
import SqlAccess.Query.Statement
import SqlAccess.Row
import SqlAccess.Schema.Column
import SqlAccess.Schema.ColumnType
import SqlAccess.Schema.Definition
import SqlAccess.Schema.Key
import SqlAccess.Schema.Table
import SqlAccess.Text.Blank
import SqlAccess.Text.Described
import SqlAccess.Text.Keyword
import SqlAccess.Text.Number
import SqlAccess.Text.Split
import SqlAccess.Text.Uppercase
import SqlAccess.Text.Utf8
import SqlAccess.Text.Word
import SqlAccess.Timestamp.Basic
import SqlAccess.Timestamp.Reader
import SqlAccess.Value
