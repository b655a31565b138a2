/-
# The columns of a report

The table and the comma-separated form both take their columns from the first
row. A row with other keys would lose cells, or get cells that it does not have.
If all rows have the keys of the first one (`Report.IsUniform`), each record and
each line is made of the cells of its row, all of them and in order, and every
line has as many cells as the table has columns, so that none is left without a
width (`Report.showsAll_of_isUniform`). But there is a table only as long as no
text is too long to be padded.

Key definitions: `Report.IsUniform`, `Report.ShowsAll`.
Key theorem: `Report.showsAll_of_isUniform`.
-/
import DocumentSql.Proofs.OrderedMap
import DocumentSql.Proofs.Report.Widths

namespace DocumentSql

/-- The keys of a map, looked up one after the other, give its values. -/
theorem OrderedMap.map_get?_keys {κ β : Type*} [DecidableEq κ] (m : OrderedMap κ β) :
    m.keys.map m.get? = m.values.map some := by
  have hfound : ∀ e ∈ m.entries, m.get? e.1 = some e.2 := fun e he =>
    (OrderedMap.get?_eq_some_iff m e.1 e.2).mpr he
  rw [keys, values, List.map_map, List.map_map]
  exact List.map_congr_left hfound

namespace Report

variable {rows : List Row}

/-- Every row has the keys of the first row, in the same order. -/
def IsUniform (rows : List Row) : Prop := ∀ row ∈ rows, row.keys = headers rows

theorem isUniform_of_forall_keys_eq {ks : List String} (h : ∀ row ∈ rows, row.keys = ks) :
    IsUniform rows := by
  intro row hrow
  cases rows with
  | nil => cases hrow
  | cons first rest => rw [headers, h row hrow, h first List.mem_cons_self]

/-! ### Cells -/

/-- Looking up the columns of a report in one of its rows gives the cells of the row. -/
theorem IsUniform.map_get? (h : IsUniform rows) {row : Row} (hrow : row ∈ rows) :
    (headers rows).map row.get? = row.values.map some := by
  rw [← h row hrow, OrderedMap.map_get?_keys]

/-- The fields of a row, all of them. -/
theorem IsUniform.csvRecords_eq (h : IsUniform rows) (hcolumns : headers rows ≠ []) :
    csvRecords rows =
      headers rows :: rows.map fun row => row.values.map fun v => csvCell (some v) := by
  have hfields : ∀ row ∈ rows, (headers rows).map (fun column => csvCell (row.get? column)) =
      row.values.map fun v => csvCell (some v) := by
    intro row hrow
    have hcells := congrArg (List.map csvCell) (h.map_get? hrow)
    rwa [List.map_map, List.map_map] at hcells
  rw [csvRecords, if_neg (by simpa using hcolumns), List.map_congr_left hfields]

/-- The texts of a row, all of them. -/
theorem IsUniform.map_tableCell (h : IsUniform rows) {row : Row} (hrow : row ∈ rows) :
    (headers rows).map (tableCell row) = row.values.map Scalar.display := by
  have hcell : tableCell row = (fun cell => (cell.map Scalar.display).getD "") ∘ row.get? := by
    funext column
    rw [tableCell, Function.comp_apply]
    cases row.get? column <;> rfl
  rw [hcell, ← List.map_map, h.map_get? hrow, List.map_map]
  rfl

theorem IsUniform.tableCells_eq (h : IsUniform rows) :
    tableCells rows = headers rows :: rows.map fun row => row.values.map Scalar.display := by
  rw [tableCells, List.map_congr_left fun _ hrow => h.map_tableCell hrow]

theorem IsUniform.length_values (h : IsUniform rows) {row : Row} (hrow : row ∈ rows) :
    row.values.length = (headers rows).length := by
  rw [← h row hrow, OrderedMap.keys, OrderedMap.values, List.length_map, List.length_map]

/-- All texts can be padded if the names and those of all cells can. -/
theorem IsUniform.fitsLimit_iff (h : IsUniform rows) :
    FitsLimit rows ↔ (∀ name ∈ headers rows, name.length ≤ widthLimit) ∧
      ∀ row ∈ rows, ∀ v ∈ row.values, v.display.length ≤ widthLimit := by
  rw [FitsLimit, h.tableCells_eq, List.forall_mem_cons, List.forall_mem_map]
  simp only [List.forall_mem_map]

/-- The lines of all rows, made of all their cells. -/
theorem IsUniform.linesOf_eq (h : IsUniform rows) :
    linesOf rows = lineOf (columnWidths (tableCells rows)) (headers rows) ::
      tableRule (columnWidths (tableCells rows)) :: rows.map fun row =>
        lineOf (columnWidths (tableCells rows)) (row.values.map Scalar.display) := by
  have hlines : ∀ row ∈ rows,
      lineOf (columnWidths (tableCells rows)) ((headers rows).map (tableCell row)) =
        lineOf (columnWidths (tableCells rows)) (row.values.map Scalar.display) := by
    intro row hrow
    rw [h.map_tableCell hrow]
  rw [linesOf, List.map_congr_left hlines]

/-! ### Whole reports -/

/-- What is written of rows leaves out no cell of them. -/
structure ShowsAll (rows : List Row) : Prop where
  /-- Behind the names there is one record for each row, with the fields of all its cells. -/
  csv_eq : headers rows ≠ [] → csv rows = String.ofList
    ((headers rows :: rows.map fun row => row.values.map fun v => csvCell (some v)).flatMap csvRecord)
  /-- Behind the names and the rule there is one line for each row, with the texts of all its
  cells. There is no table if one of the texts is too long. -/
  table?_eq : headers rows ≠ [] → ∀ rowCount milliseconds, table? rows rowCount milliseconds =
    if (∀ name ∈ headers rows, name.length ≤ widthLimit) ∧
        ∀ row ∈ rows, ∀ v ∈ row.values, v.display.length ≤ widthLimit then
      let widths := columnWidths (tableCells rows)
      some (String.ofList ((lineOf widths (headers rows) :: tableRule widths ::
        rows.map fun row => lineOf widths (row.values.map Scalar.display)).flatMap (· ++ ['\n'])) ++
          footer rowCount milliseconds ++ "\n")
    else none
  /-- A line writes as many texts as it has widths for, and there is one for each cell. -/
  widths_length : ∀ row ∈ rows, (columnWidths (tableCells rows)).length = row.values.length
  /-- Where no columns are written there is nothing to write. -/
  values_eq_nil : headers rows = [] → ∀ row ∈ rows, row.values = []

theorem showsAll_of_isUniform (h : IsUniform rows) : ShowsAll rows where
  csv_eq hcolumns := by rw [csv, h.csvRecords_eq hcolumns]
  table?_eq hcolumns rowCount milliseconds := by
    rw [Report.table?_eq hcolumns, h.linesOf_eq]
    simp only [h.fitsLimit_iff]
  widths_length row hrow := by rw [length_columnWidths, h.length_values hrow]
  values_eq_nil hcolumns row hrow := by
    apply List.eq_nil_of_length_eq_zero
    rw [h.length_values hrow, hcolumns, List.length_nil]

end Report
end DocumentSql
