/-
# Results as aligned text

The columns are those of the first row. Each is as wide, in characters, as its
longest text; texts are padded on the right, columns are set apart by ` | `, and
blanks at the end of a line are left out. A rule follows the names, and the last
line tells the number of rows and the time taken.

Texts are padded to at most 65535 characters. So there is no table of a result
with a column that is wider.

Key definitions: `Report.tableCells`, `Report.columnWidths`, `Report.padRight?`,
`Report.tableLine?`, `Report.table?`.
-/
import DocumentSql.Report.Csv

namespace DocumentSql
namespace Report

/-- The text of a cell; null is shown, and only a missing cell is empty. -/
def tableCell (row : Row) (column : String) : String :=
  match row.get? column with
  | some v => v.display
  | none => ""

/-- The texts of the names and of all cells, line by line. -/
def tableCells (rows : List Row) : List (List String) :=
  headers rows :: rows.map fun row => (headers rows).map (tableCell row)

/-- The greater width of each column, of two lists of widths of one length. -/
def maxWidths (a b : List Nat) : List Nat := List.zipWith max a b

/-- The width of each column. -/
def columnWidths (cells : List (List String)) : List Nat :=
  match cells with
  | [] => []
  | first :: rest =>
    rest.foldl (fun widths line => maxWidths widths (line.map String.length))
      (first.map String.length)

/-- The greatest width to which a text can be padded. -/
def widthLimit : Nat := 65535

/-- The characters of a text, with spaces up to the width, if that is within the limit. -/
def padRight? (width : Nat) (s : String) : Option (List Char) :=
  if width ≤ widthLimit then some (s.toList ++ List.replicate (width - s.length) ' ') else none

/-- The fields of a line. -/
def tableFields? : List Nat → List String → Option (List (List Char))
  | width :: widths, text :: texts => do
    let field ← padRight? width text
    return field :: (← tableFields? widths texts)
  | _, _ => some []

/-- The characters of a line. -/
def tableLine? (widths : List Nat) (cells : List String) : Option (List Char) := do
  let fields ← tableFields? widths cells
  return Text.dropBlanksRight ([' ', '|', ' '].intercalate fields)

/-- The characters of the rule below the names. -/
def tableRule (widths : List Nat) : List Char :=
  ['-', '+', '-'].intercalate (widths.map fun w => List.replicate w '-')

/-- The last line. -/
def footer (rowCount milliseconds : Nat) : String :=
  "(" ++ Decimal.natText rowCount ++ " rows, " ++ Decimal.natText milliseconds ++ " ms)"

/-- The lines of a result that has columns, the last one left out. -/
def tableLines? (rows : List Row) : Option (List (List Char)) :=
  let widths := columnWidths (tableCells rows)
  match tableCells rows with
  | [] => some []
  | names :: cells => do
    let header ← tableLine? widths names
    let body ← cells.mapM (tableLine? widths)
    return header :: tableRule widths :: body

/-- The text of a result. Without columns there is only a last line, which counts no rows. -/
def table? (rows : List Row) (rowCount milliseconds : Nat) : Option String :=
  if (headers rows).isEmpty then some (footer 0 milliseconds ++ "\n")
  else do
    let lines ← tableLines? rows
    return String.ofList (lines.flatMap (· ++ ['\n'])) ++ footer rowCount milliseconds ++ "\n"

end Report
end DocumentSql
