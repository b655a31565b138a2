import DocumentSql.Binary64.Basic
import DocumentSql.Binary64.Extended
import DocumentSql.Binary64.Rounding
import DocumentSql.Binary64.Scaling
import DocumentSql.Binary64.Shortest
import DocumentSql.Binary64.Text
import DocumentSql.Decimal.Digits
import DocumentSql.Error
import DocumentSql.Exchange
import DocumentSql.FileError
import DocumentSql.Json.Basic
import DocumentSql.Json.Cells
import DocumentSql.Json.Number
import DocumentSql.Json.Reader
import DocumentSql.Json.Record
import DocumentSql.Json.Token
import DocumentSql.Json.Writer
import DocumentSql.Like
import DocumentSql.Like.Expression
import DocumentSql.Main
import DocumentSql.OrderedMap
import DocumentSql.Predicate
import DocumentSql.Proofs.Binary64.Integers
import DocumentSql.Proofs.Binary64.Rounding
import DocumentSql.Proofs.Binary64.Scaling
import DocumentSql.Proofs.Binary64.Shortest
import DocumentSql.Proofs.Json.Cells
import DocumentSql.Proofs.Json.Numbers
import DocumentSql.Proofs.Json.Reading
import DocumentSql.Proofs.Like
import DocumentSql.Proofs.Lists
import DocumentSql.Proofs.OrderedMap
import DocumentSql.Proofs.Predicate
import DocumentSql.Proofs.Readback
import DocumentSql.Proofs.Report.Alignment
import DocumentSql.Proofs.Report.Columns
import DocumentSql.Proofs.Report.CsvReading
import DocumentSql.Proofs.Report.Widths
import DocumentSql.Proofs.Scalar
import DocumentSql.Proofs.Select.Accepted
import DocumentSql.Proofs.Select.Bounds
import DocumentSql.Proofs.Select.Column
import DocumentSql.Proofs.Select.CrossJoin
import DocumentSql.Proofs.Select.Extremes
import DocumentSql.Proofs.Select.Fetched
import DocumentSql.Proofs.Select.GroupColumns
import DocumentSql.Proofs.Select.GroupKey
import DocumentSql.Proofs.Select.GroupValues
import DocumentSql.Proofs.Select.Grouping
import DocumentSql.Proofs.Select.JoinOrder
import DocumentSql.Proofs.Select.LenientLookup
import DocumentSql.Proofs.Select.Lookup
import DocumentSql.Proofs.Select.LookupAgreement
import DocumentSql.Proofs.Select.Matching
import DocumentSql.Proofs.Select.OnOrder
import DocumentSql.Proofs.Select.Pushdown
import DocumentSql.Proofs.Select.Reference
import DocumentSql.Proofs.Select.RowCap
import DocumentSql.Proofs.Select.Shape
import DocumentSql.Proofs.Select.Sources
import DocumentSql.Proofs.Select.Supported
import DocumentSql.Proofs.Select.Totals
import DocumentSql.Proofs.Select.Tuple
import DocumentSql.Proofs.Shell.Acts
import DocumentSql.Proofs.Shell.Exit
import DocumentSql.Proofs.Shell.Failures
import DocumentSql.Proofs.Shell.Statements
import DocumentSql.Proofs.Sql.AwaitedWord
import DocumentSql.Proofs.Sql.Clauses
import DocumentSql.Proofs.Sql.Collecting
import DocumentSql.Proofs.Sql.Continuation
import DocumentSql.Proofs.Sql.Cutting
import DocumentSql.Proofs.Sql.Distinct
import DocumentSql.Proofs.Sql.Filters
import DocumentSql.Proofs.Sql.FromClause
import DocumentSql.Proofs.Sql.Identifier
import DocumentSql.Proofs.Sql.InList
import DocumentSql.Proofs.Sql.IntegerCondition
import DocumentSql.Proofs.Sql.Layout
import DocumentSql.Proofs.Sql.NormalForm
import DocumentSql.Proofs.Sql.Parentheses
import DocumentSql.Proofs.Sql.RoundTrip
import DocumentSql.Proofs.Sql.Statement
import DocumentSql.Proofs.Sql.TerminatedFrom
import DocumentSql.Proofs.Sql.Terminator
import DocumentSql.Proofs.Sql.WellFormed
import DocumentSql.Proofs.Sql.Words
import DocumentSql.Proofs.Store.CellPath
import DocumentSql.Proofs.Store.History
import DocumentSql.Proofs.Store.InferredColumns
import DocumentSql.Proofs.Store.IntegerCondition
import DocumentSql.Proofs.Store.IntegerFilter
import DocumentSql.Proofs.Store.Interchange
import DocumentSql.Proofs.Store.Isolation
import DocumentSql.Proofs.Store.Judging
import DocumentSql.Proofs.Store.Loading
import DocumentSql.Proofs.Store.OrderlyRuns
import DocumentSql.Proofs.Store.Reachable
import DocumentSql.Proofs.Store.Steps
import DocumentSql.Proofs.Text.Case
import DocumentSql.Proofs.Text.Lines
import DocumentSql.Report.Csv
import DocumentSql.Report.Format
import DocumentSql.Report.Table
import DocumentSql.Scalar
import DocumentSql.Schema
import DocumentSql.Select.Grouping
import DocumentSql.Select.Join
import DocumentSql.Select.Plan
import DocumentSql.Select.Run
import DocumentSql.Select.Scope
import DocumentSql.Settings
import DocumentSql.Settings.Variables
import DocumentSql.Shell.Arguments
import DocumentSql.Shell.DatabaseFile
import DocumentSql.Shell.Device
import DocumentSql.Shell.Files
import DocumentSql.Shell.Program
import DocumentSql.Shell.Session
import DocumentSql.Shell.Terminal
import DocumentSql.Sql.Keyword
import DocumentSql.Sql.Literal
import DocumentSql.Sql.Parser
import DocumentSql.Sql.Query
import DocumentSql.Sql.Token
import DocumentSql.Store.CellPath
import DocumentSql.Store.Collation
import DocumentSql.Store.Condition
import DocumentSql.Store.Fixture
import DocumentSql.Store.Memory
import DocumentSql.Store.Serialized
import DocumentSql.Store.StoredRow
import DocumentSql.Store.Url
import DocumentSql.Text.Alphanumeric
import DocumentSql.Text.Blank
import DocumentSql.Text.Bytes
import DocumentSql.Text.Case
import DocumentSql.Text.Lines
