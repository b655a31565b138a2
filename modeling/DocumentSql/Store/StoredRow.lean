/-
# Stored rows

A row is stored as the compact JSON text of an object, under a number and the
identifier of a table. A document is read back from the text, and its doubles
are those that the text is read as.

Key definitions: `StoredRow`, `StoredRow.text`, `StoredRow.document`.
-/
import DocumentSql.Error
import DocumentSql.Json.Cells
import DocumentSql.Json.Reader

namespace DocumentSql

/-- A stored row: its number, the identifier of its table, and the row. -/
structure StoredRow where
  number : Nat
  tableId : String
  row : Row
deriving DecidableEq

namespace StoredRow

/-- The text that is kept for the row. -/
def text (r : StoredRow) : String := r.row.toJson.compact

/-- The document that is read from the text. -/
def document (r : StoredRow) : Except StoreError Document :=
  match Json.document? r.text with
  | some v => .ok ⟨Decimal.natText r.number, Row.ofJson v⟩
  | none => .error .malformedJson

end StoredRow
end DocumentSql
