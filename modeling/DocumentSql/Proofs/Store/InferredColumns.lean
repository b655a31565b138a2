/-
# Columns that a fixture leaves out

A table of a fixture that gives no columns gets the keys of its rows: each once,
in the order in which they first occur (`Fixture.isColumnOrder_inferColumns`).
The statement `SELECT * FROM table` shows for every row the cells of all columns
(`execute_allOf`), so with these columns it shows the whole row: nothing that the
fixture says of the table is lost on the way through the store
(`Fixture.execute_allOf_inferred`).

If a project defines a table more than once, this is said of the last definition,
which is the one that stays (`Fixture.mem_lastDefinitions`).

Key definitions: `Fixture.IsColumnOrder`, `Query.allOf`, `Row.onto`, `Row.IsShownAs`.
Key theorems: `Fixture.isColumnOrder_inferColumns`, `Query.ofText_allOf`,
`execute_allOf`, `Fixture.exists_loaded`, `Fixture.execute_allOf_inferred`.
-/
import DocumentSql.Proofs.Select.RowCap
import DocumentSql.Proofs.Select.Sources
import DocumentSql.Proofs.Sql.Distinct
import DocumentSql.Proofs.Sql.IntegerCondition
import DocumentSql.Proofs.Store.Loading

namespace DocumentSql

/-! ### The keys of rows as columns -/

namespace Fixture

/-- The columns are the keys of the rows: each once, in the order in which they first occur. -/
structure IsColumnOrder (columns : List String) (rows : List Row) : Prop where
  nodup : columns.Nodup
  mem_iff : ∀ key, key ∈ columns ↔ ∃ row ∈ rows, key ∈ row.keys
  ordered : columns.Pairwise fun a b =>
    (rows.flatMap (·.keys)).idxOf a < (rows.flatMap (·.keys)).idxOf b

theorem isColumnOrder_inferColumns (rows : List Row) :
    IsColumnOrder (inferColumns rows) rows where
  nodup := Sql.nodup_distinct _
  mem_iff key := by rw [inferColumns, Sql.mem_distinct, List.mem_flatMap]
  ordered := Sql.pairwise_idxOf_distinct _

end Fixture

/-! ### All columns of one table -/

/-- All columns of one table. -/
def Query.allOf (table : String) : Query := { kind := .select, tables := [table], columns := ["*"] }

theorem Sql.isWord_star : IsWord "*".toList := by decide

theorem Sql.star_not_reserved : ∀ keyword ∈ reserved, Text.sameWord "*" keyword = false := by decide

/-- The SELECT of all columns of a table. -/
def Sql.Select.allOf (table : Sql.Name) : Sql.Select where
  items := [.column ⟨"*", isWord_star, star_not_reserved⟩]
  first := ⟨table, none⟩
  others := []
  joins := []
  tests := none
  groupBy := []
  having := none
  orderBy := []
  limit := none
  offset := none
  closing := []
  closing_isLexeme := isLexeme_of_mem_nil
  closing_head := text_of_mem_head_nil

/-- `SELECT * FROM table` asks for all columns of the table. -/
theorem Query.ofText_allOf (table : Sql.Name) :
    ofText ("SELECT * FROM " ++ table.text) = allOf table.text := by
  have htext : "SELECT * FROM " ++ table.text = (Sql.Select.allOf table).joined := by
    rw [Sql.Select.joined, ← String.toList_inj]
    simp [Sql.Select.allOf, Sql.Select.pieces, Sql.Select.testPieces, Sql.Select.byPieces,
      Sql.Select.countPieces, Sql.Item.pieces, Sql.Source.pieces, Sql.Source.aliasPieces,
      Sql.commaSeparated, Sql.Piece.token]
  rw [htext, ofText_joined]
  rfl

/-- The row with a cell for each of the columns, null where it has none. -/
def Row.onto (columns : List String) (row : Row) : Row :=
  .ofList (columns.map fun column => (column, row.cell column))

section AllOf

variable {schema : ProjectSchema} {table : TableSchema}

theorem Plan.ofQuery_allOf (htable : schema.table? table.name = some table) :
    ofQuery (.allOf table.name) schema = .ok ⟨⟨[table.name], .empty⟩, [table], []⟩ := by
  refine ofQuery_eq_ok_iff.mpr {
    valid := rfl
    kind := rfl
    joins := rfl
    conditions := rfl
    nonempty := List.cons_ne_nil _ _
    closed := rfl
    scope := rfl
    tables := ?_
    routed := rfl }
  rw [Query.allOf, findTables, htable]
  rfl

/-- The documents that are fetched are shown one by one, with a cell for every column. -/
theorem execute_allOf (htable : schema.table? table.name = some table) {fetch : Fetch}
    {rowCap : Nat} {documents : List Document} (hfetch : fetch table [] rowCap = .ok documents) :
    execute (.allOf table.name) schema fetch rowCap =
      .ok ((documents.map (·.data)).map (Row.onto table.columns)) := by
  refine execute_eq_ok_iff.mpr ⟨_, [(table.name, documents)], Plan.ofQuery_allOf htable, ?_, ?_⟩
  · simp only [Plan.fetchTables, Plan.predicatesFor, List.filter_nil, List.map_nil, hfetch]
    rfl
  · have hkeys : (⟨⟨[table.name], .empty⟩, [table], []⟩ : Plan).starKeys [] = table.columns := by
      simp [Plan.starKeys, Plan.columnsOf, Plan.table?, Plan.starTables, Scope.base]
    rw [Plan.resultRows_of_plain rfl rfl]
    simp only [Query.allOf, Plan.joinedRows, Plan.documentsOf, Scope.base, List.head?_cons,
      Option.getD_some, Entries.find?, if_true, List.foldl_nil]
    refine List.map_congr_left fun row _ => ?_
    rw [Plan.projectRow, List.flatMap_singleton, Plan.selectCells, if_pos rfl, hkeys, Row.onto]

end AllOf

/-- The row is shown with all columns: its own cells, and null where it has none. -/
structure Row.IsShownAs (columns : List String) (row out : Row) : Prop where
  keys_eq : out.keys = columns
  mem_entries : ∀ e ∈ row.entries, e ∈ out.entries
  get?_of_notMem : ∀ column ∈ columns, column ∉ row.keys → out.get? column = some .null

theorem Row.isShownAs_onto {columns : List String} (hn : columns.Nodup) {row : Row}
    (hkeys : ∀ key ∈ row.keys, key ∈ columns) : row.IsShownAs columns (row.onto columns) := by
  have hfst : (columns.map fun column => (column, row.cell column)).map Prod.fst = columns := by
    simp [Function.comp_def]
  have hentries : (row.onto columns).entries =
      columns.map fun column => (column, row.cell column) :=
    OrderedMap.entries_ofList (hfst.symm ▸ hn)
  refine ⟨by rw [OrderedMap.keys, hentries, hfst], ?_, ?_⟩
  · rintro ⟨key, value⟩ he
    have hget : row.get? key = some value := (OrderedMap.get?_eq_some_iff row key value).mpr he
    have hcell : row.cell key = value := by rw [cell, hget, Option.getD_some]
    rw [hentries]
    exact List.mem_map.mpr ⟨key, hkeys key (OrderedMap.mem_keys_of_get? hget), by rw [hcell]⟩
  · intro column hc hnot
    have hcell : row.cell column = .null := by
      rw [cell, (OrderedMap.get?_eq_none_iff row column).mpr hnot]
      rfl
    rw [OrderedMap.get?, hentries, Entries.find?_map_pair, if_pos hc, hcell]

/-! ### The way through the store -/

namespace Fixture

theorem mem_lastDefinitions {t : Table} {later : List Table} (h : ∀ u ∈ later, u.name ≠ t.name) :
    ∀ before : List Table, t ∈ lastDefinitions (before ++ t :: later)
  | [] => by
    have hlater : later.any (·.name == t.name) = false := by
      rw [List.any_eq_false]
      intro u hu
      simpa using h u hu
    rw [List.nil_append, lastDefinitions, hlater]
    exact List.mem_cons_self
  | u :: before => by
    rw [List.cons_append, lastDefinitions]
    split
    · exact mem_lastDefinitions h before
    · exact List.mem_cons_of_mem _ (mem_lastDefinitions h before)

theorem map_data_numbered (table : String) (rows : List Row) :
    (numbered table rows).map (·.data) = rows := by
  refine List.ext_getElem (by simp [numbered]) fun k _ _ => ?_
  simp [numbered]

/-- Only the projects of a fixture are created. -/
theorem mem_ids_of_create {projects : List Project} {project name : String} {columns : List String}
    (h : .create project name columns ∈ steps projects) : project ∈ projects.map (·.id) := by
  obtain ⟨p, hp, hm⟩ := List.mem_flatMap.mp h
  obtain ⟨t, -, hm⟩ := List.mem_flatMap.mp hm
  have hproject : project = p.id := by
    rcases List.mem_cons.mp hm with he | hm
    · exact (StoreStep.create.inj he).1
    · obtain ⟨_, -, he⟩ := List.mem_map.mp hm
      cases he
  exact hproject ▸ List.mem_map_of_mem hp

variable {projects : List Project}

theorem hasColonFreeIds_of_load {s : MemoryStore}
    (hs : s.Records (projects.map (·.id)) (steps projects))
    (hids : ∀ p ∈ projects, ':' ∉ p.id.toList) : s.HasColonFreeIds := by
  intro project hproject
  have hmem : project ∈ projects.map (·.id) := by
    rcases (hs.mem_keys_iff project).mp hproject with hadded | ⟨_, _, hcreated⟩
    · exact hadded
    · exact mem_ids_of_create hcreated
  obtain ⟨p, hp, rfl⟩ := List.mem_map.mp hmem
  exact hids p hp

/-- The last definition of a table is in the store: its columns in the schema of the project, and
its rows in what is fetched. -/
theorem exists_loaded (hids : ∀ p ∈ projects, ':' ∉ p.id.toList) {project : String}
    {before later : List Table} {t : Table}
    (htables : (projects.filter (·.id == project)).flatMap (·.tables) = before ++ t :: later)
    (hlast : ∀ u ∈ later, u.name ≠ t.name) :
    ∃ s schema, load projects = .ok s ∧ s.schema project = .ok schema ∧
      schema.table? t.name = some ⟨tableId project t.name, t.name, t.allColumns⟩ ∧
      ∀ rowCap, s.fetch ⟨tableId project t.name, t.name, t.allColumns⟩ [] rowCap =
        .ok ((numbered t.name t.rows).take rowCap) := by
  obtain ⟨s, hload, hrecords⟩ := exists_load projects MemoryStore.records_empty
  rw [List.nil_append, List.nil_append] at hrecords
  have hdefined : t.complete ∈ lastTables project (steps projects) := by
    rw [lastTables_steps, htables]
    exact List.mem_map_of_mem (mem_lastDefinitions hlast before)
  have hstored : t.complete.stored project ∈ s.tablesOf project := by
    rw [hrecords.tablesOf_eq]
    exact List.mem_map_of_mem hdefined
  obtain ⟨schema, hschema⟩ : ∃ schema, s.schema project = .ok schema := by
    obtain ⟨tables, htables⟩ := Option.ne_none_iff_exists'.mp
      (mt (OrderedMap.get?_eq_none_iff s.projects project).mp
        (not_not.mpr (MemoryStore.mem_keys_of_mem_tablesOf hstored)))
    exact ⟨⟨project, tables.map (·.schema)⟩, by rw [MemoryStore.schema, htables]⟩
  have htable : (t.complete.stored project).schema ∈ schema.tables := by
    rw [MemoryStore.tables_of_schema hschema]
    exact List.mem_map_of_mem hstored
  refine ⟨s, schema, hload, hschema, ?_, fun rowCap => ?_⟩
  · refine find?_of_unique htable (beq_self_eq_true t.name) fun u hu hname => ?_
    rw [MemoryStore.tables_of_schema hschema] at hu
    obtain ⟨u', hu', rfl⟩ := List.mem_map.mp hu
    exact congrArg MemoryTable.schema
      (hrecords.wellFormed.eq_of_name hu' hstored (beq_iff_eq.mp hname))
  · have hfetch := hrecords.wellFormed.fetch_eq
      (hrecords.wellFormed.ownsIds (hasColonFreeIds_of_load hrecords hids) project) hschema htable
      [] rowCap
    have hdocuments : s.documentsOf project t.complete.name =
        numbered t.complete.name t.complete.rows := hrecords.documentsOf_eq hdefined
    have hall : (numbered t.name t.rows).filter (holdsAll []) = numbered t.name t.rows :=
      List.filter_eq_self.mpr fun _ _ => rfl
    rw [← hall]
    exact hdocuments ▸ hfetch

/-- **Inferred columns lose nothing.** If a table of a fixture gives no columns, and the project
does not define it again, its columns are the keys of its rows in the order in which they first
occur, and `SELECT * FROM table` gives a row for each of its rows, in order, with all its cells. -/
theorem execute_allOf_inferred {v : Json} (hv : projects? v = some projects)
    (hids : ∀ p ∈ projects, ':' ∉ p.id.toList) {project : String} {before later : List Table}
    {t : Table}
    (htables : (projects.filter (·.id == project)).flatMap (·.tables) = before ++ t :: later)
    (hlast : ∀ u ∈ later, u.name ≠ t.name) (hcolumns : t.columns = []) :
    ∃ s schema columns, MemoryStore.ofJson v = .ok s ∧ s.schema project = .ok schema ∧
      schema.table? t.name = some ⟨tableId project t.name, t.name, columns⟩ ∧
      IsColumnOrder columns t.rows ∧
      (∀ name : Sql.Name, name.text = t.name →
        Query.ofText ("SELECT * FROM " ++ t.name) = .allOf t.name) ∧
      ∀ rowCap, t.rows.length ≤ rowCap →
        ∃ rows, execute (.allOf t.name) schema s.fetch rowCap = .ok rows ∧
          List.Forall₂ (Row.IsShownAs columns) t.rows rows := by
  obtain ⟨s, schema, hload, hschema, htable, hfetch⟩ := exists_loaded hids htables hlast
  have hall : t.allColumns = inferColumns t.rows := by rw [Table.allColumns, hcolumns]; rfl
  rw [hall] at htable hfetch
  have horder := isColumnOrder_inferColumns t.rows
  refine ⟨s, schema, inferColumns t.rows, ?_, hschema, htable, horder, ?_, fun rowCap hcap => ?_⟩
  · rw [MemoryStore.ofJson, hv]
    exact hload
  · intro name hname
    rw [← hname]
    exact Query.ofText_allOf name
  · have htake : (numbered t.name t.rows).take rowCap = numbered t.name t.rows :=
      List.take_of_length_le (by simpa [numbered] using hcap)
    have hfetched := hfetch rowCap
    rw [htake] at hfetched
    refine ⟨_, execute_allOf htable hfetched, ?_⟩
    rw [map_data_numbered]
    refine List.forall₂_map_right_iff.mpr (List.forall₂_same.mpr fun row hrow => ?_)
    exact Row.isShownAs_onto horder.nodup fun key hkey => (horder.mem_iff key).mpr ⟨row, hrow, hkey⟩

namespace Sample

/-- A log without columns, with rows of different keys and a row that is no object, and a table of
which the second definition stays. -/
def eventLog : Json :=
  .obj [("projects", .arr [.obj [("id", .str "shop"), ("tables", .arr [
    .obj [("name", .str "users")],
    .obj [("name", .str "events"), ("rows", .arr [
      .obj [("id", .int 1), ("kind", .str "open")], .int 3,
      .obj [("note", .str "late"), ("id", .int 2)]])],
    .obj [("name", .str "users"), ("columns", .arr [.str "id"])]])]])]

def events : Table :=
  ⟨"events", [], [.ofList [("id", .int 1), ("kind", .text "open")], .empty,
    .ofList [("note", .text "late"), ("id", .int 2)]]⟩

theorem execute_allOf_events :
    inferColumns events.rows = ["id", "kind", "note"] ∧
      ∃ s schema columns, MemoryStore.ofJson eventLog = .ok s ∧ s.schema "shop" = .ok schema ∧
        schema.table? "events" = some ⟨"shop:events", "events", columns⟩ ∧
        IsColumnOrder columns events.rows ∧
        ∃ rows, execute (.allOf "events") schema s.fetch 3 = .ok rows ∧
          List.Forall₂ (Row.IsShownAs columns) events.rows rows := by
  have hv : projects? eventLog =
      some [⟨"shop", [⟨"users", [], []⟩, events, ⟨"users", ["id"], []⟩]⟩] := by decide +kernel
  have htables : (List.filter (fun p : Project => p.id == "shop")
        [⟨"shop", [⟨"users", [], []⟩, events, ⟨"users", ["id"], []⟩]⟩]).flatMap (·.tables) =
      [⟨"users", [], []⟩] ++ events :: [⟨"users", ["id"], []⟩] := rfl
  obtain ⟨s, schema, columns, hs, hschema, htable, horder, -, hrows⟩ :=
    execute_allOf_inferred hv (by decide) htables (by decide) rfl
  exact ⟨by decide +kernel, s, schema, columns, hs, hschema, htable, horder, hrows 3 (by decide)⟩

end Sample
end Fixture
end DocumentSql
