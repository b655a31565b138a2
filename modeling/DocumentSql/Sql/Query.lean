/-
# Statements

A `Query` is what a statement says, clause by clause. A text that is no
statement is a `Query` too: it is marked as not valid, carries a message, and
all its clauses are empty.

Key definitions: `Condition`, `Join`, `Aggregate`, `Query`.
-/
import DocumentSql.Scalar
import DocumentSql.Sql.Keyword

namespace DocumentSql

/-- One comparison of a WHERE or HAVING clause. -/
structure Condition where
  column : String
  comparison : Comparison
  value : Scalar
  /-- The word that joins this condition to the one behind it. -/
  connector : Option Connector := none
deriving DecidableEq

/-- The two columns that a join matches, and the operator between them. -/
structure JoinOn where
  left : String
  operator : String
  right : String
deriving DecidableEq

/-- A table joined to the tables before it. -/
structure Join where
  kind : JoinKind
  table : String
  aliasName : Option String
  on : JoinOn
deriving DecidableEq

/-- A column to order by. -/
structure OrderItem where
  column : String
  direction : Direction
deriving DecidableEq

/-- A function applied to a column of the rows of a group. -/
structure Aggregate where
  function : AggregateFunction
  /-- The column as written; `*` stands for the row itself. -/
  column : String
  aliasName : Option String
deriving DecidableEq

namespace Aggregate

/-- The name of the result: the alias, or the function and the column. -/
def outputName (a : Aggregate) : String :=
  match a.aliasName with
  | some aliasName => aliasName
  | none => Text.lower a.function.text ++ "_" ++ a.column

/-- Whether rows are counted, whatever they hold. -/
def countsRows (a : Aggregate) : Bool := a.function == .count && a.column == "*"

end Aggregate

/-- A statement, clause by clause. -/
structure Query where
  kind : StatementKind
  /-- Each table once: those of the FROM clause, then those that joins add. -/
  tables : List String := []
  /-- The select list as written, aggregates under the names of their results. -/
  columns : List String := []
  conditions : List Condition := []
  joins : List Join := []
  orderBy : List OrderItem := []
  groupBy : List String := []
  having : List Condition := []
  limit : Option UInt64 := none
  offset : Option UInt64 := none
  aggregates : List Aggregate := []
  /-- The tables that aliases stand for. -/
  aliases : OrderedMap String String := .empty
  isValid : Bool := true
  error : Option String := none
deriving DecidableEq

namespace Query

/-- A text that is no statement of its kind, with the reason. -/
def invalid (kind : StatementKind) (message : String) : Query :=
  { kind, isValid := false, error := some message }

/-- Whether the rows of the result stand for groups of rows. -/
def isAggregate (q : Query) : Bool := !q.aggregates.isEmpty || !q.groupBy.isEmpty

/-- Whether the select list asks for all columns. -/
def selectsAll (q : Query) : Bool := q.columns.contains "*"

end Query
end DocumentSql
