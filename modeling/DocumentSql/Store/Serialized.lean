/-
# Tables as text

A `SerializedStore` keeps every row as text, in one list for all tables,
numbered from one. Registering a table again keeps its rows, gives it new
columns, and moves it behind all other tables; its identifier then belongs to
the project that registered it last. Rows may be stored under any identifier. A
project is known as long as it has tables.

Rows are looked at one by one until there are enough of them. One that cannot be
judged is an error, unless a condition before or none at all could hold. The
documents are then read from the texts of the rows.

Key definitions: `SerializedStore`, `SerializedStore.createTable`,
`SerializedStore.insertRow`, `SerializedStore.fetch`, `SerializedStore.schema`.
-/
import DocumentSql.Store.Condition
import DocumentSql.Store.Memory

namespace DocumentSql

/-- A registered table. -/
structure Registration where
  project : String
  schema : TableSchema
deriving DecidableEq

/-- Tables in the order of registration, rows in the order of storing. -/
structure SerializedStore where
  tables : List Registration
  rows : List StoredRow
deriving DecidableEq

namespace SerializedStore

/-- The store without tables and rows. -/
def empty : SerializedStore := ⟨[], []⟩

/-- Registers a table under its identifier. -/
def createTable (s : SerializedStore) (project name : String) (columns : List String) :
    SerializedStore × TableSchema :=
  let schema : TableSchema := ⟨tableId project name, name, columns⟩
  ({ s with tables := s.tables.filter (·.schema.id != schema.id) ++ [⟨project, schema⟩] }, schema)

/-- Stores a row under a table's identifier; the number of the row comes with it. -/
def insertRow (s : SerializedStore) (tableId : String) (row : Row) : SerializedStore × Nat :=
  let number := s.rows.length + 1
  ({ s with rows := s.rows ++ [⟨number, tableId, row⟩] }, number)

/-- The rows stored under an identifier. -/
def rowsOf (s : SerializedStore) (tableId : String) : List StoredRow :=
  s.rows.filter (·.tableId == tableId)

/-- The greatest number of documents that can be asked for at once. -/
def maxLimit : Nat := Int64.maxValue.toInt.toNat

/-- At most `limit` documents stored for a table that satisfy all the predicates. -/
def fetch (s : SerializedStore) : Fetch := fun t predicates limit => do
  (← Predicate.select predicates (min limit maxLimit) (s.rowsOf t.id)).mapM StoredRow.document

/-- The schemas of the tables of a project. -/
def schema (s : SerializedStore) (project : String) : Except StoreError ProjectSchema :=
  match (s.tables.filter (·.project == project)).map (·.schema) with
  | [] => .error (.projectNotFound project)
  | tables => .ok ⟨project, tables⟩

/-- The store as a source for queries. -/
def source (s : SerializedStore) : RowSource := ⟨s.schema, s.fetch⟩

end SerializedStore
end DocumentSql
