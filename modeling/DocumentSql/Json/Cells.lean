/-
# Rows as JSON objects

A row is an object with a member for each cell. Read back, a number is an
integer if 64 bits with a sign hold it and a double if not, and an array or an
object in a cell is kept as its compact text. What is not an object is the
empty row.

Key definitions: `Scalar.toJson`, `Scalar.ofJson`, `Row.toJson`, `Row.ofJson`.
-/
import DocumentSql.Json.Writer
import DocumentSql.Scalar

namespace DocumentSql

namespace Scalar

/-- The JSON value of a cell. -/
def toJson : Scalar → Json
  | .null => .null
  | .bool b => .bool b
  | .int i => .int i.toInt
  | .float x => .float x
  | .text s => .str s

/-- The cell for a JSON value. -/
def ofJson : Json → Scalar
  | .null => .null
  | .bool b => .bool b
  | .int i => ofWhole i
  | .float x => .float x
  | .str s => .text s
  | .unreadable => .null
  | v => .text v.compact

end Scalar

namespace Row

/-- The object of a row. -/
def toJson (row : Row) : Json := .obj (row.entries.map fun e => (e.1, e.2.toJson))

/-- The row of an object. -/
def ofJson : Json → Row
  | .obj members => OrderedMap.ofList (members.map fun m => (m.1, Scalar.ofJson m.2))
  | _ => .empty

end Row
end DocumentSql
