/-
# Joining rows

A join combines each row so far with each document of the joined table whose
columns match. The combined row keeps the cells it has and gets one cell
`table.column` for every column of the joined table's schema, null where the
document has none.

Key definitions: `Join.oriented`, `JoinOn.leftTable`, `joinRows`.
-/
import DocumentSql.Select.Scope
import DocumentSql.Sql.Query

namespace DocumentSql

namespace Join

/-- Whether the table part of a reference names the joined table, by alias or by name. -/
def isNamedBy (j : Join) (operand : String) : Bool :=
  match (Column.split operand).1 with
  | some name => j.aliasName == some name || name == j.table
  | none => false

/-- The ON columns with that of the joined table on the right, if only one of them names it. -/
def oriented (j : Join) : JoinOn :=
  if j.isNamedBy j.on.left && !j.isNamedBy j.on.right then
    ⟨j.on.right, j.on.operator, j.on.left⟩
  else j.on

end Join

namespace JoinOn

/-- The table that the left column is read from; a bare column is the base table's. -/
def leftTable (on : JoinOn) (scope : Scope) : String :=
  match (Column.split on.left).1 with
  | some name => scope.tableOf name
  | none => scope.base

end JoinOn

/-- The cell of a row so far that is matched: at the key of its table, or else at the bare key. -/
def leftCell? (row : Row) (table column : String) : Option Scalar :=
  match row.get? (Column.qualified table column) with
  | some v => some v
  | none => row.get? column

/-- A row with the columns of a document of the joined table. -/
def mergeRow (table : String) (columns : List String) (left : Row) (right : Row) : Row :=
  left.insertAll (columns.map fun c => (Column.qualified table c, right.cell c))

/-- Whether a document has the column and its cell equals `value`. -/
def matchesCell (column : String) (value : Scalar) (d : Document) : Bool :=
  match d.data.get? column with
  | some v => value.looselyEquals v
  | none => false

/-- The combined rows, in the order of the left rows and then of the documents. -/
def joinRows (left : List Row) (right : List Document) (on : JoinOn)
    (leftTable rightTable : String) (rightColumns : List String) : List Row :=
  left.flatMap fun row =>
    match leftCell? row leftTable (Column.bareName on.left) with
    | none => []
    | some value =>
      (right.filter (matchesCell (Column.bareName on.right) value)).map fun d =>
        mergeRow rightTable rightColumns row d.data

end DocumentSql
