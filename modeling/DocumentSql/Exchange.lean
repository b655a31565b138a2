/-
# Records that are exchanged

The JSON forms of requests, answers, documents, schemas and keywords. Here a
row may hold scalars only; arrays and objects in it are refused. The project of
a request goes under two names, the second of which is read only.

Key definitions: `Request`, `Row.ofRecord?`, `Document.ofRecord?`,
`ProjectSchema.ofRecord?`, `Answer.ofRecord?`, `Keywords`.
-/
import DocumentSql.Json.Cells
import DocumentSql.Json.Record
import DocumentSql.Select.Run

namespace DocumentSql

/-- A query with the project that it is for. -/
structure Request where
  projectId : String
  query : String
deriving DecidableEq

/-- One keyword of each kind. -/
structure Keywords where
  statement : StatementKind
  join : JoinKind
  function : AggregateFunction
  comparison : Comparison
  connector : Connector
  direction : Direction
deriving DecidableEq

namespace Json

/-- The texts of a list as an array. -/
def ofTexts (ss : List String) : Json := .arr (ss.map .str)

/-- The value among `all` whose written form a keyword gives. The keyword is a string, or the only
name of an object whose value is null. -/
def keyword? {α : Type} (write : α → String) (all : List α) : Json → Option α
  | .str s => all.find? (write · == s)
  | .obj [(s, .null)] => all.find? (write · == s)
  | _ => none

end Json

namespace Scalar

/-- The cell for a value that is no array and no object. -/
def ofLeaf? : Json → Option Scalar
  | .arr _ => none
  | .obj _ => none
  | .unreadable => none
  | v => some (ofJson v)

end Scalar

namespace Row

/-- The row of an object of scalars. -/
def ofRecord? : Json → Option Row
  | .obj members =>
    (members.mapM fun m => (Scalar.ofLeaf? m.2).map (m.1, ·)).map OrderedMap.ofList
  | _ => none

end Row

namespace Request

/-- Reads a request. -/
def ofRecord? (v : Json) : Option Request := do
  match ← Json.fields? [["project_id", "projectId"], ["query"]] v with
  | [projectId, query] => return ⟨← (← projectId).text?, ← (← query).text?⟩
  | _ => none

/-- The JSON form of a request. -/
def toJson (r : Request) : Json :=
  .obj [("project_id", .str r.projectId), ("query", .str r.query)]

end Request

namespace Document

/-- Reads a document. -/
def ofRecord? (v : Json) : Option Document := do
  match ← Json.fields? [["id"], ["data"]] v with
  | [id, data] => return ⟨← (← id).text?, ← Row.ofRecord? (← data)⟩
  | _ => none

/-- The JSON form of a document. -/
def toJson (d : Document) : Json := .obj [("id", .str d.id), ("data", d.data.toJson)]

end Document

namespace TableSchema

/-- Reads the schema of a table. -/
def ofRecord? (v : Json) : Option TableSchema := do
  match ← Json.fields? [["id"], ["name"], ["columns"]] v with
  | [id, name, columns] =>
    return ⟨← (← id).text?, ← (← name).text?, ← Json.list? Json.text? (← columns)⟩
  | _ => none

/-- The JSON form of the schema of a table. -/
def toJson (t : TableSchema) : Json :=
  .obj [("id", .str t.id), ("name", .str t.name), ("columns", Json.ofTexts t.columns)]

end TableSchema

namespace ProjectSchema

/-- Reads the schema of a project. -/
def ofRecord? (v : Json) : Option ProjectSchema := do
  match ← Json.fields? [["project_id"], ["tables"]] v with
  | [projectId, tables] =>
    return ⟨← (← projectId).text?, ← Json.list? TableSchema.ofRecord? (← tables)⟩
  | _ => none

/-- The JSON form of the schema of a project. -/
def toJson (p : ProjectSchema) : Json :=
  .obj [("project_id", .str p.projectId), ("tables", .arr (p.tables.map TableSchema.toJson))]

end ProjectSchema

namespace Answer

/-- Reads an answer. -/
def ofRecord? (v : Json) : Option Answer := do
  match ← Json.fields?
      [["query"], ["rows"], ["rowCount"], ["executionTimeMs"], ["affectedTables"]] v with
  | [query, rows, rowCount, milliseconds, tables] =>
    return {
      query := ← (← query).text?
      rows := ← Json.list? Row.ofRecord? (← rows)
      rowCount := ← (← rowCount).natural?
      milliseconds := ← (← milliseconds).natural?
      tables := ← Json.list? Json.text? (← tables) }
  | _ => none

/-- The JSON form of an answer. -/
def toJson (a : Answer) : Json :=
  .obj [("query", .str a.query), ("rows", .arr (a.rows.map Row.toJson)),
    ("rowCount", .int a.rowCount), ("executionTimeMs", .int a.milliseconds),
    ("affectedTables", Json.ofTexts a.tables)]

end Answer

namespace Keywords

/-- Reads an array of six keywords. -/
def ofRecord? : Json → Option Keywords
  | .arr [statement, join, function, comparison, connector, direction] => do
    return {
      statement := ← Json.keyword? StatementKind.text
        [.select, .insert, .update, .delete, .unknown] statement
      join := ← Json.keyword? JoinKind.text [.inner, .left, .right, .full] join
      function := ← Json.keyword? AggregateFunction.text [.count, .sum, .avg, .min, .max] function
      comparison := ← Json.keyword? Comparison.text
        [.eq, .notEq, .greater, .less, .greaterEq, .lessEq, .like, .inList] comparison
      connector := ← Json.keyword? Connector.text [.and, .or] connector
      direction := ← Json.keyword? Direction.text [.asc, .desc] direction }
  | _ => none

/-- The array of the keywords. -/
def toJson (k : Keywords) : Json :=
  Json.ofTexts [k.statement.text, k.join.text, k.function.text, k.comparison.text,
    k.connector.text, k.direction.text]

end Keywords
end DocumentSql
