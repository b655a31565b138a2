/-
# Output formats

A result can be written as an aligned table, as JSON or as comma-separated
values. A file holds what the format writes; on a terminal JSON gets a line end.
Of some results there is no table, but every one can be written in the other two.

Key definitions: `Report.Format`, `Report.render?`, `Report.renderLine?`.
-/
import DocumentSql.Json.Cells
import DocumentSql.Report.Table
import DocumentSql.Select.Run

namespace DocumentSql
namespace Report

/-- How a result is written. -/
inductive Format where
  | table
  | json
  | csv
deriving DecidableEq

namespace Format

/-- The format of that name. -/
def ofName? : String → Option Format
  | "table" => some .table
  | "json" => some .json
  | "csv" => some .csv
  | _ => none

end Format

/-- The rows as a JSON array with items and members on lines of their own. -/
def json (rows : List Row) : String := (Json.arr (rows.map Row.toJson)).spread

/-- The text of an answer. -/
def render? (format : Format) (a : Answer) : Option String :=
  match format with
  | .table => table? a.rows a.rowCount a.milliseconds
  | .json => some (json a.rows)
  | .csv => some (csv a.rows)

/-- The text of an answer on a terminal. -/
def renderLine? (format : Format) (a : Answer) : Option String :=
  match format with
  | .json => (render? .json a).map (· ++ "\n")
  | _ => render? format a

end Report
end DocumentSql
