/-
# Results as comma-separated values

One record for the names of the columns and one for each row, each ended by a
line feed. The columns are those of the first row, so a result without rows is
the empty text. A field is quoted if it holds a comma, a quote, a line feed or
a carriage return, and a quote inside it is doubled; a record whose only field
is empty is written as two quotes. Null and missing cells are empty.

Key definitions: `Report.headers`, `Report.csvField`, `Report.csv`.
-/
import DocumentSql.Scalar

namespace DocumentSql
namespace Report

/-- The columns of a result: those of its first row. -/
def headers : List Row → List String
  | [] => []
  | row :: _ => row.keys

/-- Whether a field cannot stand without quotes. -/
def needsQuotes (cs : List Char) : Bool :=
  cs.any fun c => c = ',' || c = '"' || c = '\n' || c = '\r'

/-- The characters with each quote written twice. -/
def doubleQuotes (cs : List Char) : List Char :=
  cs.flatMap fun c => if c = '"' then ['"', '"'] else [c]

/-- The written form of a field. -/
def csvField (s : String) : List Char :=
  if needsQuotes s.toList then '"' :: doubleQuotes s.toList ++ ['"'] else s.toList

/-- The written form of a record. -/
def csvRecord (fields : List String) : List Char :=
  if fields = [""] then ['"', '"', '\n'] else [','].intercalate (fields.map csvField) ++ ['\n']

/-- The field for a cell. -/
def csvCell : Option Scalar → String
  | none => ""
  | some .null => ""
  | some v => v.display

/-- The records of a result. -/
def csvRecords (rows : List Row) : List (List String) :=
  if (headers rows).isEmpty then []
  else headers rows :: rows.map fun row => (headers rows).map fun h => csvCell (row.get? h)

/-- The text of a result. -/
def csv (rows : List Row) : String := String.ofList ((csvRecords rows).flatMap csvRecord)

end Report
end DocumentSql
