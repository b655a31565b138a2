/-
# The widths of a table

Each column of a table is as wide as its longest text, counted in characters, the
name included (`Report.columnWidths_tableCells`). So a column is too wide to be
padded if and only if one of its texts is too long
(`Report.forall_columnWidths_le_iff`).

As long as all columns can be padded, each line is that of its padded texts. If
one cannot, its name cannot be padded either, and there is not even the first
line. So there is a table of exactly those results whose texts are all short
enough (`Report.table?_eq`).

Key definitions: `Report.AreWidths`, `Report.FitsLimit`, `Report.paddedLine`,
`Report.lineOf`.
Key theorems: `Report.columnWidths_tableCells`, `Report.areWidths_columnWidths`,
`Report.table?_eq`.
-/
import Mathlib.Data.List.Forall2
import Mathlib.Order.Bounds.Basic
import DocumentSql.Report.Table

namespace DocumentSql
namespace Report

variable {rows : List Row} {names : List String} {widths : List Nat}

/-! ### The longest text -/

/-- The width of a column is what the fold over the lines makes of it. -/
theorem foldl_maxWidths (names : List String) : ∀ (rows : List Row) (width : String → Nat),
    (rows.map fun row => names.map (tableCell row)).foldl
        (fun widths line => maxWidths widths (line.map String.length)) (names.map width) =
      names.map fun name => (rows.map fun row => (tableCell row name).length).foldl max (width name)
  | [], _ => rfl
  | row :: rows, width => by
    have hnext : maxWidths (names.map width) ((names.map (tableCell row)).map String.length) =
        names.map fun name => max (width name) (tableCell row name).length := by
      rw [maxWidths, List.map_map, List.zipWith_map, List.zipWith_self]
      rfl
    rw [List.map_cons, List.foldl_cons, hnext, foldl_maxWidths names rows]
    rfl

theorem columnWidths_tableCells (rows : List Row) :
    columnWidths (tableCells rows) = (headers rows).map fun name =>
      (rows.map fun row => (tableCell row name).length).foldl max name.length :=
  foldl_maxWidths (headers rows) rows String.length

/-- There is a width for every column. -/
theorem length_columnWidths (rows : List Row) :
    (columnWidths (tableCells rows)).length = (headers rows).length := by
  rw [columnWidths_tableCells, List.length_map]

/-- Columns of these names that are as wide as the longest of their texts is in characters, the
name and the cells of the rows. -/
def AreWidths (rows : List Row) (names : List String) (widths : List Nat) : Prop :=
  List.Forall₂ (fun name width =>
    IsGreatest {n | n ∈ name.length :: rows.map fun row => (tableCell row name).length} width)
    names widths

theorem isGreatest_width (rows : List Row) (name : String) :
    IsGreatest {n | n ∈ name.length :: rows.map fun row => (tableCell row name).length}
      ((rows.map fun row => (tableCell row name).length).foldl max name.length) :=
  List.max?_eq_some_iff.mp rfl

theorem areWidths_columnWidths (rows : List Row) :
    AreWidths rows (headers rows) (columnWidths (tableCells rows)) := by
  rw [columnWidths_tableCells, AreWidths, List.forall₂_map_right_iff, List.forall₂_same]
  exact fun name _ => isGreatest_width rows name

theorem AreWidths.names_fit (h : AreWidths rows names widths) :
    List.Forall₂ (fun text width => text.length ≤ width) names widths :=
  h.imp fun _ _ hgreatest => hgreatest.2 List.mem_cons_self

theorem AreWidths.cells_fit (h : AreWidths rows names widths) {row : Row} (hrow : row ∈ rows) :
    List.Forall₂ (fun text width => text.length ≤ width) (names.map (tableCell row)) widths := by
  rw [List.forall₂_map_left_iff]
  exact h.imp fun _ _ hgreatest =>
    hgreatest.2 (List.mem_cons_of_mem _ (List.mem_map.mpr ⟨row, hrow, rfl⟩))

/-- All texts of a table can be padded. -/
def FitsLimit (rows : List Row) : Prop :=
  ∀ texts ∈ tableCells rows, ∀ text ∈ texts, text.length ≤ widthLimit

instance : Decidable (FitsLimit rows) :=
  inferInstanceAs (Decidable (∀ texts ∈ tableCells rows, ∀ text ∈ texts, text.length ≤ widthLimit))

/-- No column is too wide if no text is too long. -/
theorem forall_columnWidths_le_iff (rows : List Row) :
    (∀ w ∈ columnWidths (tableCells rows), w ≤ widthLimit) ↔ FitsLimit rows := by
  have hcolumn : ∀ name,
      (rows.map fun row => (tableCell row name).length).foldl max name.length ≤ widthLimit ↔
        name.length ≤ widthLimit ∧ ∀ row ∈ rows, (tableCell row name).length ≤ widthLimit := by
    intro name
    rw [isLUB_le_iff (isGreatest_width rows name).isLUB, mem_upperBounds]
    simp
  rw [columnWidths_tableCells, FitsLimit, tableCells, List.forall_mem_cons, List.forall_mem_map]
  simp only [List.forall_mem_map, hcolumn, forall₂_and]
  exact and_congr_right fun _ => ⟨fun h row hrow name hname => h name hname row hrow,
    fun h name hname row hrow => h row hrow name hname⟩

/-! ### Lines -/

/-- The texts of a line, each with spaces up to the width of its column. -/
def paddedFields (widths : List Nat) (texts : List String) : List (List Char) :=
  List.zipWith (fun width (text : String) => text.toList.rightpad width ' ') widths texts

/-- The padded texts of a line with ` | ` between them. -/
def paddedLine (widths : List Nat) (texts : List String) : List Char :=
  [' ', '|', ' '].intercalate (paddedFields widths texts)

/-- The line of texts in columns of these widths, whatever the limit. -/
def lineOf (widths : List Nat) (texts : List String) : List Char :=
  Text.dropBlanksRight (paddedLine widths texts)

theorem padRight?_of_le {width : Nat} (h : width ≤ widthLimit) (s : String) :
    padRight? width s = some (s.toList.rightpad width ' ') := by
  rw [padRight?, if_pos h, List.rightpad, String.length_toList]

theorem padRight?_of_lt {width : Nat} (h : widthLimit < width) (s : String) :
    padRight? width s = none := if_neg (Nat.not_le.mpr h)

theorem tableFields?_of_le : ∀ {widths : List Nat}, (∀ w ∈ widths, w ≤ widthLimit) →
    ∀ texts : List String, tableFields? widths texts = some (paddedFields widths texts)
  | [], _, _ => by simp [tableFields?, paddedFields]
  | _ :: _, _, [] => rfl
  | width :: widths, h, text :: texts => by
    rw [List.forall_mem_cons] at h
    simp [tableFields?, padRight?_of_le h.1, tableFields?_of_le h.2 texts, paddedFields]

/-- A line has no fields if one of them cannot be padded. -/
theorem tableFields?_eq_none : ∀ {widths : List Nat} {texts : List String},
    widths.length ≤ texts.length → (∃ w ∈ widths, widthLimit < w) → tableFields? widths texts = none
  | [], _, _, h => by simp at h
  | _ :: _, [], hlength, _ => by simp at hlength
  | width :: widths, text :: texts, hlength, h => by
    rw [List.exists_mem_cons_iff] at h
    rcases h with h | h
    · simp [tableFields?, padRight?_of_lt h]
    · simp [tableFields?, tableFields?_eq_none (Nat.le_of_succ_le_succ hlength) h]

theorem tableLine?_of_le (h : ∀ w ∈ widths, w ≤ widthLimit) (texts : List String) :
    tableLine? widths texts = some (lineOf widths texts) := by
  rw [tableLine?, tableFields?_of_le h]
  rfl

theorem tableLine?_eq_none {texts : List String} (hlength : widths.length ≤ texts.length)
    (h : ∃ w ∈ widths, widthLimit < w) : tableLine? widths texts = none := by
  rw [tableLine?, tableFields?_eq_none hlength h]
  rfl

/-! ### Whole tables -/

/-- The lines of a table whatever the limit, the last one left out. -/
def linesOf (rows : List Row) : List (List Char) :=
  lineOf (columnWidths (tableCells rows)) (headers rows) ::
    tableRule (columnWidths (tableCells rows)) :: rows.map fun row =>
      lineOf (columnWidths (tableCells rows)) ((headers rows).map (tableCell row))

theorem tableLines?_eq (rows : List Row) :
    tableLines? rows = if FitsLimit rows then some (linesOf rows) else none := by
  have hunfold : tableLines? rows =
      (tableLine? (columnWidths (tableCells rows)) (headers rows)).bind fun header =>
        ((rows.map fun row => (headers rows).map (tableCell row)).mapM
          (tableLine? (columnWidths (tableCells rows)))).map fun body =>
            header :: tableRule (columnWidths (tableCells rows)) :: body := by
    simp only [Option.map_eq_bind]
    rfl
  by_cases h : FitsLimit rows
  · have hline : tableLine? (columnWidths (tableCells rows)) =
        fun texts => pure (lineOf (columnWidths (tableCells rows)) texts) := by
      funext texts
      exact tableLine?_of_le ((forall_columnWidths_le_iff rows).mpr h) texts
    rw [if_pos h, hunfold, hline, List.mapM_pure, List.map_map]
    rfl
  · have hwide : ∃ w ∈ columnWidths (tableCells rows), widthLimit < w := by
      rw [← forall_columnWidths_le_iff] at h
      push Not at h
      exact h
    rw [if_neg h, hunfold, tableLine?_eq_none (length_columnWidths rows).le hwide, Option.bind_none]

/-- **There is a table if all texts can be padded.** Else the line of the names fails already. -/
theorem table?_eq (h : headers rows ≠ []) (rowCount milliseconds : Nat) :
    table? rows rowCount milliseconds =
      if FitsLimit rows then
        some (String.ofList ((linesOf rows).flatMap (· ++ ['\n'])) ++
          footer rowCount milliseconds ++ "\n")
      else none := by
  rw [table?, if_neg (by simpa using h), tableLines?_eq]
  split <;> rfl

/-- One text that is too long is enough for there to be no table. -/
theorem table?_eq_none {row : Row} {name : String} (hrow : row ∈ rows) (hname : name ∈ headers rows)
    (hlong : widthLimit < (tableCell row name).length) (rowCount milliseconds : Nat) :
    table? rows rowCount milliseconds = none := by
  have hline : (headers rows).map (tableCell row) ∈ tableCells rows :=
    List.mem_cons_of_mem _ (List.mem_map.mpr ⟨row, hrow, rfl⟩)
  have hfits : ¬ FitsLimit rows := fun h =>
    Nat.not_le.mpr hlong (h _ hline _ (List.mem_map.mpr ⟨name, hname, rfl⟩))
  rw [table?_eq (List.ne_nil_of_mem hname), if_neg hfits]

end Report

namespace Sample

/-- A row whose only text is too long for a table, by one character. -/
def scroll : Row := .ofList [("body", .text (String.ofList (List.replicate 65536 'x')))]

theorem table?_scroll (rowCount milliseconds : Nat) :
    Report.table? [scroll] rowCount milliseconds = none := by
  have hname : "body" ∈ Report.headers [scroll] := List.mem_singleton_self "body"
  have hcell : Report.tableCell scroll "body" = String.ofList (List.replicate 65536 'x') := rfl
  have hlong : Report.widthLimit < (Report.tableCell scroll "body").length := by
    rw [hcell, String.length_ofList, List.length_replicate]
    decide
  exact Report.table?_eq_none (List.mem_singleton_self scroll) hname hlong rowCount milliseconds

end Sample
end DocumentSql
