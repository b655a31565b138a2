/-
# Rows survive their JSON text

Every row is read back from its text, with its keys in order and each double as
its text is read (`Row.reread`): a stored row always has a document. A row
without doubles is read back as it is, since the object of its cells is plain.

Key definitions: `Scalar.reread`, `Row.reread`, `Row.IsWithoutDoubles`.
Key theorems: `Row.get?_reread`, `StoredRow.document_eq_reread`,
`Row.document?_toJson`, `Row.ofJson_toJson`, `StoredRow.document_eq`.
-/
import DocumentSql.Proofs.Json.Reading
import DocumentSql.Proofs.Scalar
import DocumentSql.Store.StoredRow

namespace DocumentSql

namespace Scalar

theorem isReadable_toInt (i : Int64) : Json.IsReadable i.toInt :=
  ⟨i.minValue_le_toInt, Int.lt_of_le_of_lt i.toInt_le (by decide)⟩

/-- The cell that is read of the text of a cell. -/
def reread (v : Scalar) : Scalar := ofJson v.toJson.reread

theorem reread_int (i : Int64) : reread (.int i) = .int i := ofWhole_toInt i

end Scalar

namespace Row

/-! ### Rows with doubles -/

/-- The row with each cell as its text is read. -/
def reread (row : Row) : Row := ofJson row.toJson.reread

theorem isLegible_toJson (row : Row) : row.toJson.IsLegible := by
  refine .obj ?_ ?_
  · rw [List.map_map]
    exact row.nodup_keys
  · intro m hm
    obtain ⟨e, -, rfl⟩ := List.mem_map.mp hm
    cases e.2 with
    | null => exact .null
    | bool b => exact .bool b
    | int i => exact .int (Scalar.isReadable_toInt i)
    | float x => exact .float x
    | text s => exact .str s

theorem entries_reread (row : Row) :
    row.reread.entries = row.entries.map fun e => (e.1, e.2.reread) := by
  have hcells : row.reread = OrderedMap.ofList (row.entries.map fun e => (e.1, e.2.reread)) := by
    rw [reread, toJson, Json.reread, Json.rereadMembers_eq_map, List.map_map, ofJson, List.map_map]
    rfl
  rw [hcells, OrderedMap.entries_ofList]
  rw [List.map_map]
  exact row.nodup_keys

/-- A cell is read as its own text is. -/
theorem get?_reread (row : Row) (key : String) :
    row.reread.get? key = (row.get? key).map Scalar.reread := by
  rw [OrderedMap.get?, entries_reread, Entries.find?_map_value]
  rfl

/-! ### Rows without doubles -/

/-- No cell of the row holds a double. -/
def IsWithoutDoubles (row : Row) : Prop := ∀ e ∈ row.entries, ∀ x, e.2 ≠ .float x

instance : ∀ cell : Scalar, Decidable (∀ x, cell ≠ .float x)
  | .float x => .isFalse fun h => h x rfl
  | .null | .bool _ | .int _ | .text _ => .isTrue fun _ => Scalar.noConfusion

instance (row : Row) : Decidable row.IsWithoutDoubles :=
  inferInstanceAs (Decidable (∀ e ∈ row.entries, ∀ x, e.2 ≠ .float x))

variable {row : Row}

theorem isPlain_toJson (h : row.IsWithoutDoubles) : row.toJson.IsPlain := by
  refine .obj ?_ ?_
  · rw [List.map_map]
    exact row.nodup_keys
  · intro m hm
    obtain ⟨e, he, rfl⟩ := List.mem_map.mp hm
    have hcell := h e he
    cases hv : e.2 with
    | null => exact .null
    | bool b => exact .bool b
    | int i => exact .int (Scalar.isReadable_toInt i)
    | float x => exact absurd hv (hcell x)
    | text s => exact .str s

/-- Cells are no containers. -/
theorem depth_toJson (row : Row) : row.toJson.depth = 1 := by
  have hcells : ∀ es : List (String × Scalar),
      Json.depthMembers (es.map fun e => (e.1, e.2.toJson)) = 0 := by
    intro es
    induction es with
    | nil => rfl
    | cons e es ih =>
      have hcell : e.2.toJson.depth = 0 := by cases e.2 <;> rfl
      rw [List.map_cons, Json.depthMembers, hcell, ih, Nat.max_self]
  rw [toJson, Json.depth, hcells]

theorem ofJson_toJson (h : row.IsWithoutDoubles) : ofJson row.toJson = row := by
  have hcells : (row.entries.map fun e => (e.1, e.2.toJson)).map
      (fun m => (m.1, Scalar.ofJson m.2)) = row.entries := by
    rw [List.map_map]
    refine (List.map_congr_left fun e he => ?_).trans (List.map_id _)
    have hcell := h e he
    obtain ⟨key, v⟩ := e
    cases v with
    | null => rfl
    | bool b => rfl
    | int i => exact congrArg (Prod.mk key) (Scalar.ofWhole_toInt i)
    | float x => exact absurd rfl (hcell x)
    | text s => rfl
  rw [toJson, ofJson, hcells, OrderedMap.ofList_entries]

/-- The object of a row is read back from its compact text. -/
theorem document?_toJson (h : row.IsWithoutDoubles) :
    Json.document? row.toJson.compact = some row.toJson := by
  apply Json.document?_compact (isPlain_toJson h)
  rw [depth_toJson]
  decide

end Row

/-- Every stored row has a document. -/
theorem StoredRow.document_eq_reread (r : StoredRow) :
    r.document = .ok ⟨Decimal.natText r.number, r.row.reread⟩ := by
  have hdepth : r.row.toJson.depth ≤ Json.depthLimit := by
    rw [Row.depth_toJson]
    decide
  rw [document, text, Json.document?_reread r.row.isLegible_toJson hdepth]
  rfl

/-- The document of a stored row without doubles holds the row. -/
theorem StoredRow.document_eq {r : StoredRow} (h : r.row.IsWithoutDoubles) :
    r.document = .ok ⟨Decimal.natText r.number, r.row⟩ := by
  rw [document, text, Row.document?_toJson h]
  simp only [Row.ofJson_toJson h]

end DocumentSql
