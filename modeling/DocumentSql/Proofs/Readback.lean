/-
# Rows are read back from their texts

A row without doubles is the row of its own compact text. Rows pass through
texts in two places. A serialized store keeps the text of every row and reads it
for each fetch: what is fetched of a row that was stored is the row, whatever
else the table holds, and a row that is stored comes behind those that were
fetched before (`SerializedStore.fetch_insertRow`). A result is written as an
array, with the objects of its rows on lines of their own
(`Report.document?_json`).

Key theorems: `SerializedStore.fetch_insertRow`,
`SerializedStore.exists_rows_of_fetch`, `Report.document?_json`,
`Row.read_back`.
-/
import DocumentSql.Proofs.Lists
import DocumentSql.Proofs.Store.Judging
import DocumentSql.Report.Format

namespace DocumentSql

/-- A row is read back from its compact text. -/
theorem Row.map_ofJson_document? {row : Row} (h : row.IsWithoutDoubles) :
    (Json.document? row.toJson.compact).map Row.ofJson = some row := by
  rw [Row.document?_toJson h, Option.map_some, Row.ofJson_toJson h]

/-! ### What is fetched -/

namespace StoredRow

/-- The document has the number of the row, and holds the row if that has no doubles. -/
def IsReadAs (r : StoredRow) (d : Document) : Prop :=
  d.id = Decimal.natText r.number ∧ (r.row.IsWithoutDoubles → d.data = r.row)

theorem isReadAs_of_document_eq {r : StoredRow} {d : Document} (h : r.document = .ok d) :
    r.IsReadAs d := by
  constructor
  · unfold document at h
    split at h
    · exact (congrArg Document.id (Except.ok.inj h)).symm
    · cases h
  · intro hrow
    rw [document_eq hrow] at h
    exact (congrArg Document.data (Except.ok.inj h)).symm

end StoredRow

namespace Predicate

theorem firstOf_sublist {ps : List Predicate} : ∀ {limit : Nat} {rows found : List StoredRow},
    firstOf ps limit rows = .ok found → found.Sublist rows
  | 0, rows, found, h => by
    rw [firstOf] at h
    exact Except.ok.inj h ▸ List.nil_sublist rows
  | _ + 1, [], found, h => Except.ok.inj h ▸ List.nil_sublist []
  | limit + 1, r :: rows, found, h => by
    unfold firstOf at h
    split at h
    · cases h
    · cases hrest : firstOf ps limit rows with
      | error e => rw [hrest] at h; cases h
      | ok rest =>
        rw [hrest] at h
        obtain rfl : r :: rest = found := Except.ok.inj h
        exact (firstOf_sublist hrest).cons_cons r
    · exact (firstOf_sublist h).cons r

/-- The rows that are found are rows that were looked at, in their order. -/
theorem select_sublist {ps : List Predicate} {limit : Nat} {rows found : List StoredRow}
    (h : select ps limit rows = .ok found) : found.Sublist rows := by
  unfold select at h
  split at h
  · cases h
  · split at h
    · exact Except.ok.inj h ▸ List.nil_sublist _
    · exact firstOf_sublist h

/-- Without predicates the first rows are found. -/
theorem select_nil (limit : Nat) (rows : List StoredRow) :
    select [] limit rows = .ok (rows.take limit) := by
  have hselect : select [] limit rows =
      .ok ((rows.filter fun r => [].all fun p : Predicate => p.holds r.row).take limit) :=
    select_eq limit (by decide) fun _ _ => nofun
  simpa using hselect

end Predicate

namespace SerializedStore

variable {s : SerializedStore} {t : TableSchema}

theorem fetch_nil (s : SerializedStore) (t : TableSchema) (limit : Nat) :
    s.fetch t [] limit = ((s.rowsOf t.id).take (min limit maxLimit)).mapM StoredRow.document := by
  rw [fetch, Predicate.select_nil]
  rfl

/-- The documents that are fetched are read from stored rows of the table, in their order. -/
theorem exists_rows_of_fetch {ps : List Predicate} {limit : Nat} {documents : List Document}
    (h : s.fetch t ps limit = .ok documents) :
    ∃ rows, rows.Sublist (s.rowsOf t.id) ∧ List.Forall₂ StoredRow.IsReadAs rows documents := by
  unfold fetch at h
  cases hrows : Predicate.select ps (min limit maxLimit) (s.rowsOf t.id) with
  | error e => rw [hrows] at h; cases h
  | ok rows =>
    rw [hrows] at h
    exact ⟨rows, Predicate.select_sublist hrows,
      (mapM_eq_ok_iff.mp h).imp fun _ _ => StoredRow.isReadAs_of_document_eq⟩

/-- The rows of a table without doubles are all fetched. -/
theorem fetch_nil_eq (h : ∀ r ∈ s.rowsOf t.id, r.row.IsWithoutDoubles) (limit : Nat) :
    s.fetch t [] limit = .ok (((s.rowsOf t.id).take (min limit maxLimit)).map fun r =>
      ⟨Decimal.natText r.number, r.row⟩) := by
  rw [fetch_nil, mapM_document_eq fun r hr => h r (List.mem_of_mem_take hr)]

/-- A row that is stored comes behind those that were there before. -/
theorem fetch_insertRow {row : Row} (hrow : row.IsWithoutDoubles) {limit : Nat}
    {documents : List Document} (h : s.fetch t [] limit = .ok documents) :
    (s.insertRow t.id row).1.fetch t [] limit =
      .ok ((documents ++ [(⟨Decimal.natText (s.insertRow t.id row).2, row⟩ : Document)]).take
        (min limit maxLimit)) := by
  have hrows : (s.insertRow t.id row).1.rowsOf t.id =
      s.rowsOf t.id ++ [⟨(s.insertRow t.id row).2, t.id, row⟩] := by
    rw [insertRow, rowsOf, List.filter_append, ← rowsOf]
    simp
  rw [fetch_nil, mapM_eq_ok_iff] at h
  have hlast : List.Forall₂ (fun r d => StoredRow.document r = .ok d)
      [⟨(s.insertRow t.id row).2, t.id, row⟩]
      [⟨Decimal.natText (s.insertRow t.id row).2, row⟩] :=
    .cons (StoredRow.document_eq hrow) .nil
  rw [fetch_nil, hrows, mapM_eq_ok_iff, ← take_take_append]
  exact List.forall₂_take _ (List.rel_append h hlast)

end SerializedStore

/-! ### What is written -/

namespace Report

theorem depth_rows (rows : List Row) : (Json.arr (rows.map Row.toJson)).depth ≤ 2 := by
  have hitems : Json.depthItems (rows.map Row.toJson) ≤ 1 := by
    induction rows with
    | nil => exact Nat.zero_le _
    | cons row rows ih =>
      rw [List.map_cons, Json.depthItems, Row.depth_toJson]
      exact Nat.max_le.mpr ⟨le_rfl, ih⟩
  exact Nat.succ_le_succ hitems

/-- The array of the rows is read back from its text. -/
theorem document?_json {rows : List Row} (h : ∀ row ∈ rows, row.IsWithoutDoubles) :
    Json.document? (json rows) = some (.arr (rows.map Row.toJson)) := by
  apply Json.document?_spread
  · apply Json.IsPlain.arr
    intro v hv
    obtain ⟨row, hrow, rfl⟩ := List.mem_map.mp hv
    exact Row.isPlain_toJson (h row hrow)
  · exact (depth_rows rows).trans (by decide)

end Report

/-- A row without doubles survives its compact text, a store that keeps it as text, and the text of
a result. -/
theorem Row.read_back :
    (∀ row : Row, row.IsWithoutDoubles →
      (Json.document? row.toJson.compact).map Row.ofJson = some row) ∧
    (∀ (s : SerializedStore) (t : TableSchema) (ps : List Predicate) (limit : Nat)
        (documents : List Document), s.fetch t ps limit = .ok documents →
      ∃ rows, rows.Sublist (s.rowsOf t.id) ∧ List.Forall₂ StoredRow.IsReadAs rows documents) ∧
    (∀ (s : SerializedStore) (t : TableSchema) (limit : Nat),
      (∀ r ∈ s.rowsOf t.id, r.row.IsWithoutDoubles) →
      s.fetch t [] limit = .ok (((s.rowsOf t.id).take (min limit SerializedStore.maxLimit)).map
        fun r => ⟨Decimal.natText r.number, r.row⟩)) ∧
    (∀ (s : SerializedStore) (t : TableSchema) (limit : Nat) (documents : List Document)
        (row : Row), row.IsWithoutDoubles → s.fetch t [] limit = .ok documents →
      (s.insertRow t.id row).1.fetch t [] limit =
        .ok ((documents ++ [(⟨Decimal.natText (s.insertRow t.id row).2, row⟩ : Document)]).take
          (min limit SerializedStore.maxLimit))) ∧
    (∀ a : Answer, (∀ row ∈ a.rows, row.IsWithoutDoubles) →
      ∃ items, (Report.render? .json a).bind Json.document? = some (.arr items) ∧
        items.map Row.ofJson = a.rows) := by
  refine ⟨fun _ => map_ofJson_document?, fun _ _ _ _ _ => SerializedStore.exists_rows_of_fetch,
    fun _ _ limit h => SerializedStore.fetch_nil_eq h limit,
    fun _ _ _ _ _ hrow h => SerializedStore.fetch_insertRow hrow h, fun a h => ?_⟩
  refine ⟨_, Report.document?_json h, ?_⟩
  rw [List.map_map]
  exact (List.map_congr_left fun row hrow => Row.ofJson_toJson (h row hrow)).trans (List.map_id _)

namespace Sample

/-- Names and texts with quotes, backslashes and control characters, and texts that are JSON. -/
def note : Row :=
  .ofList [("", .text "\x7b\"a\": [1]\x7d"), ("\\\"b", .text "\u0007\n\\"),
    ("c", .int (-9223372036854775808)), ("d", .text "17"), ("e", .bool true), ("f", .null),
    ("A", .text "null")]

def notes : Answer := ⟨"SELECT * FROM notes", [note, note], 2, 0, ["notes"]⟩

/-- A row with a double. -/
def weight : Row := .ofList [("weight", .float (.ofInt 2))]

def weighed : SerializedStore := ⟨[], [⟨1, "shop:notes", weight⟩]⟩

theorem read_back_note :
    (Json.document? note.toJson.compact).map Row.ofJson = some note ∧
      (weighed.insertRow "shop:notes" note).1.fetch ⟨"shop:notes", "notes", []⟩ [] 10 =
        .ok [⟨"1", weight⟩, ⟨"2", note⟩] ∧
      ∃ items, (Report.render? .json notes).bind Json.document? = some (.arr items) ∧
        items.map Row.ofJson = [note, note] := by
  have hnote : note.IsWithoutDoubles := by decide +kernel
  have hbefore : weighed.fetch ⟨"shop:notes", "notes", []⟩ [] 10 = .ok [⟨"1", weight⟩] := by
    decide +kernel
  obtain ⟨htext, -, -, hstored, hwritten⟩ := Row.read_back
  have hnotes : ∀ row ∈ notes.rows, row.IsWithoutDoubles := by
    intro row hrow
    obtain rfl : row = note := by simpa [notes] using hrow
    exact hnote
  refine ⟨htext note hnote, ?_, hwritten notes hnotes⟩
  exact (hstored weighed ⟨"shop:notes", "notes", []⟩ 10 _ note hnote hbefore).trans
    (by decide +kernel)

end Sample
end DocumentSql
