/-
# Checking a query against a schema

Before anything is fetched, a query is checked: it has to be a valid SELECT
whose joins are inner joins with `=` on tables that are not in the query yet,
whose conditions are joined by AND only and do without IN, and whose tables and
WHERE columns are in the schema. Each condition is then routed to the table
that has its column, to be tested while that table's rows are fetched.

Key definitions: `checkJoins`, `checkConditions`, `routeConditions`, `Plan`,
`Plan.ofQuery`.
-/
import DocumentSql.Error
import DocumentSql.Predicate
import DocumentSql.Schema
import DocumentSql.Select.Scope

namespace DocumentSql

/-- Checks each join, given the tables that are in the query before it. -/
def checkJoins (earlier : List String) : List Join → Except QueryError Unit
  | [] => .ok ()
  | j :: rest =>
    if earlier.contains j.table then .error (.unsupported (.selfJoin j.table))
    else if j.kind ≠ .inner then .error (.unsupported (.joinKind j.kind))
    else if j.on.operator ≠ "=" then .error (.unsupported (.joinOperator j.on.operator))
    else checkJoins (earlier ++ [j.table]) rest

/-- Checks each condition of the WHERE clause. -/
def checkConditions : List Condition → Except QueryError Unit
  | [] => .ok ()
  | c :: rest =>
    if c.comparison = .inList then .error (.unsupported (.inCondition c.column))
    else if c.connector = some .or then .error (.unsupported .orCondition)
    else checkConditions rest

/-- The first table behind the base table that no join brings in. -/
def crossJoined? (tables : List String) (joins : List Join) : Option String :=
  tables.tail.find? fun t => !joins.any (·.table == t)

/-- The schemas of the named tables. -/
def findTables (schema : ProjectSchema) : List String → Except QueryError (List TableSchema)
  | [] => .ok []
  | name :: rest =>
    match schema.table? name with
    | none => .error (.tableNotFound name)
    | some t => (findTables schema rest).map (t :: ·)

/-- A predicate together with the table whose rows it is for. -/
structure Routed where
  table : String
  predicate : Predicate
deriving DecidableEq

/-- The table and the bare column that a WHERE column means: the table that its table part names,
or else the first table that lists the column. -/
def routeColumn (scope : Scope) (tables : List TableSchema) (column : String) :
    Except QueryError (String × String) :=
  match Column.split column with
  | (some name, bare) =>
    match tables.find? (·.name == scope.tableOf name) with
    | none => .error (.tableNotFound (scope.tableOf name))
    | some t =>
      if t.hasColumn bare then .ok (t.name, bare) else .error (.columnNotFound bare t.name)
  | (none, bare) =>
    match tables.find? (·.hasColumn bare) with
    | none => .error (.columnNotFound bare scope.base)
    | some t => .ok (t.name, bare)

/-- The predicates of the conditions, each with its table. -/
def routeConditions (scope : Scope) (tables : List TableSchema) :
    List Condition → Except QueryError (List Routed)
  | [] => .ok []
  | c :: rest =>
    match routeColumn scope tables c.column with
    | .error e => .error e
    | .ok (table, column) =>
      (routeConditions scope tables rest).map (⟨table, ⟨column, c.comparison, c.value⟩⟩ :: ·)

/-- What is needed to fetch and combine the rows of a query. -/
structure Plan where
  scope : Scope
  /-- The schemas of the query's tables, the base table first. -/
  tables : List TableSchema
  routed : List Routed

namespace Plan

/-- The predicates for the rows of a table, in the order of the conditions. -/
def predicatesFor (p : Plan) (table : String) : List Predicate :=
  (p.routed.filter (·.table == table)).map (·.predicate)

/-- The schema of a table of the query. -/
def table? (p : Plan) (name : String) : Option TableSchema := p.tables.find? (·.name == name)

/-- The plan of a query, if it passes all checks; the first check that fails gives the error. -/
def ofQuery (q : Query) (schema : ProjectSchema) : Except QueryError Plan := do
  if !q.isValid then throw (.invalid (q.error.getD "invalid query"))
  if q.kind ≠ .select then throw (.unsupported (.statement q.kind))
  checkJoins q.tables.head?.toList q.joins
  checkConditions q.conditions
  if q.tables.isEmpty then throw .noTable
  if let some table := crossJoined? q.tables q.joins then throw (.unsupported (.crossJoin table))
  let tables ← findTables schema q.tables
  let scope : Scope := ⟨q.tables, q.aliases⟩
  let routed ← routeConditions scope tables q.conditions
  return ⟨scope, tables, routed⟩

end Plan
end DocumentSql
