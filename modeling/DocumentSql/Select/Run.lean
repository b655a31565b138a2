/-
# Running a query

A plan is run by fetching the rows of each table that satisfy its predicates,
at most `rowCap` of each; joining them in order; and then building the result:
the rows of the groups if the query groups or aggregates, else the selected
columns of every joined row. ORDER BY, HAVING, LIMIT and OFFSET have no effect.

Key definitions: `RowSource`, `Plan.joinedRows`, `Plan.projectRow`, `execute`,
`RowSource.answer`.
-/
import DocumentSql.Select.Grouping
import DocumentSql.Select.Join
import DocumentSql.Select.Plan
import DocumentSql.Sql.Parser

namespace DocumentSql

/-- Fetches at most a number of documents of a table, those that satisfy all the predicates. -/
abbrev Fetch := TableSchema → List Predicate → Nat → Except StoreError (List Document)

/-- Where schemas and rows come from. -/
structure RowSource where
  schema : String → Except StoreError ProjectSchema
  fetch : Fetch

/-- The documents fetched for each table. -/
abbrev Fetched := List (String × List Document)

namespace Plan

/-- Fetches the documents of each of the tables. -/
def fetchTables (p : Plan) (fetch : Fetch) (rowCap : Nat) :
    List TableSchema → Except QueryError Fetched
  | [] => .ok []
  | t :: rest =>
    match fetch t (p.predicatesFor t.name) rowCap with
    | .error e => .error (.store t.name e)
    | .ok documents => (p.fetchTables fetch rowCap rest).map ((t.name, documents) :: ·)

/-- The documents of a table of the query; a table that was not fetched has none. -/
def documentsOf (fetched : Fetched) (table : String) : List Document :=
  (Entries.find? table fetched).getD []

/-- The schema columns of a table of the query. -/
def columnsOf (p : Plan) (table : String) : List String :=
  match p.table? table with
  | some t => t.columns
  | none => []

/-- The rows after one more join. -/
def joinNext (p : Plan) (fetched : Fetched) (rows : List Row) (j : Join) : List Row :=
  joinRows rows (documentsOf fetched j.table) j.oriented (j.oriented.leftTable p.scope) j.table
    (p.columnsOf j.table)

/-- The rows of the base table, joined with those of the other tables in order. -/
def joinedRows (p : Plan) (fetched : Fetched) (joins : List Join) : List Row :=
  joins.foldl (p.joinNext fetched) ((documentsOf fetched p.scope.base).map (·.data))

/-- The joined tables whose columns `*` stands for, besides those of the base table. -/
def starTables (p : Plan) (joins : List Join) : List TableSchema :=
  p.tables.filter fun t => t.name != p.scope.base && joins.any (·.table == t.name)

/-- The keys that an item of the select list stands for. -/
def starKeys (p : Plan) (joins : List Join) : List String :=
  p.columnsOf p.scope.base ++
    (p.starTables joins).flatMap fun t => t.columns.map (Column.qualified t.name)

/-- The cells that an item of the select list asks for. -/
def selectCells (p : Plan) (joins : List Join) (row : Row) (column : String) :
    List (String × Scalar) :=
  if column = "*" then (p.starKeys joins).map fun key => (key, row.cell key)
  else [(column, (p.scope.lookup? row column).getD .null)]

/-- The selected columns of a joined row; a column that the row lacks is null. -/
def projectRow (p : Plan) (q : Query) (row : Row) : Row :=
  OrderedMap.ofList (q.columns.flatMap (p.selectCells q.joins row))

/-- The rows of the result, from the joined rows. -/
def resultRows (p : Plan) (q : Query) (rows : List Row) : List Row :=
  if q.isAggregate then aggregateRows p.scope q.aggregates q.groupBy rows
  else rows.map (p.projectRow q)

end Plan

/-- The rows of a query. -/
def execute (q : Query) (schema : ProjectSchema) (fetch : Fetch) (rowCap : Nat) :
    Except QueryError (List Row) := do
  let plan ← Plan.ofQuery q schema
  let fetched ← plan.fetchTables fetch rowCap plan.tables
  return plan.resultRows q (plan.joinedRows fetched q.joins)

/-- The result of a query, with what is reported about it. -/
structure Answer where
  /-- The text of the query. -/
  query : String
  rows : List Row
  rowCount : Nat
  /-- How long the query took. -/
  milliseconds : Nat
  /-- The tables that the query names. -/
  tables : List String
deriving DecidableEq

namespace RowSource

/-- Reads, checks and runs a query on a project. The text is looked at before the project. -/
def answer (source : RowSource) (rowCap : Nat) (project sql : String) :
    Except QueryError Answer := do
  let q := Query.ofText sql
  if !q.isValid then throw (.invalid (q.error.getD "invalid query"))
  match source.schema project with
  | .error e => throw (.catalog e)
  | .ok schema =>
    let rows ← execute q schema source.fetch rowCap
    return { query := sql, rows, rowCount := rows.length, milliseconds := 0, tables := q.tables }

end RowSource
end DocumentSql
