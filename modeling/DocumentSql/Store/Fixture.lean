/-
# Fixtures

A fixture is a JSON document with the projects, tables and rows of a store.
Each project has an `id` and may have `tables`; each table has a `name` and may
have `columns` and `rows`. A table without columns gets the keys of its rows,
in the order in which they first occur.

Key definitions: `Fixture.projects?`, `Fixture.inferColumns`, `Fixture.load`,
`MemoryStore.ofText`.
-/
import DocumentSql.Json.Cells
import DocumentSql.Json.Reader
import DocumentSql.Json.Record
import DocumentSql.Store.Memory

namespace DocumentSql
namespace Fixture

/-- A table of a fixture. -/
structure Table where
  name : String
  columns : List String
  rows : List Row
deriving DecidableEq

/-- A project of a fixture. -/
structure Project where
  id : String
  tables : List Table
deriving DecidableEq

/-- Reads a table. -/
def table? (v : Json) : Option Table := do
  match ← Json.fields? [["name"], ["columns"], ["rows"]] v with
  | [name, columns, rows] =>
    let name ← (← name).text?
    let columns ← Json.orDefault? [] (Json.list? Json.text?) columns
    let rows ← Json.orDefault? [] (Json.list? fun row => some (Row.ofJson row)) rows
    return ⟨name, columns, rows⟩
  | _ => none

/-- Reads a project. -/
def project? (v : Json) : Option Project := do
  match ← Json.fields? [["id"], ["tables"]] v with
  | [id, tables] =>
    let id ← (← id).text?
    let tables ← Json.orDefault? [] (Json.list? table?) tables
    return ⟨id, tables⟩
  | _ => none

/-- Reads the projects of a fixture. -/
def projects? (v : Json) : Option (List Project) := do
  match ← Json.fields? [["projects"]] v with
  | [projects] => Json.list? project? (← projects)
  | _ => none

/-- The keys of the rows, in the order in which they first occur. -/
def inferColumns (rows : List Row) : List String := Sql.distinct (rows.flatMap (·.keys))

/-- The columns of a table: those it gives, or those of its rows if it gives none. -/
def Table.allColumns (t : Table) : List String :=
  if t.columns.isEmpty then inferColumns t.rows else t.columns

/-- Puts rows into a table, one after the other. -/
def insertRows (project table : String) (s : MemoryStore) :
    List Row → Except StoreError MemoryStore
  | [] => .ok s
  | row :: rest =>
    match s.insertRow project table row with
    | .error e => .error e
    | .ok (s, _) => insertRows project table s rest

/-- Creates a table and puts its rows into it. -/
def loadTable (project : String) (s : MemoryStore) (t : Table) : Except StoreError MemoryStore :=
  insertRows project t.name (s.createTable project t.name t.allColumns) t.rows

/-- Adds a project and its tables. -/
def loadProject (s : MemoryStore) (p : Project) : Except StoreError MemoryStore :=
  p.tables.foldlM (loadTable p.id) (s.addProject p.id)

/-- The store with the projects, tables and rows of a fixture. -/
def load (projects : List Project) : Except StoreError MemoryStore :=
  projects.foldlM loadProject .empty

end Fixture

namespace MemoryStore

/-- The store that a fixture's value describes. -/
def ofJson (v : Json) : Except StoreError MemoryStore :=
  match Fixture.projects? v with
  | some projects => Fixture.load projects
  | none => .error .malformedJson

/-- The store that a fixture's text describes. -/
def ofText (text : String) : Except StoreError MemoryStore :=
  match Json.document? text with
  | some v => ofJson v
  | none => .error .malformedJson

end MemoryStore
end DocumentSql
