/-
# What a query sees of a store

A query asks a store for the schema of a project and for documents of the
tables in it. Of the documents it sees the rows only, not the identifiers that
the store gave them. So two stores answer alike if they have the same schema and
fetch the same rows, or fail alike, for the tables of every plan over it
(`RowSource.answer_congr`).

Key definition: `rowsFetched`.
Key theorems: `execute_eq_ok_iff`, `execute_congr`, `RowSource.answer_congr`.
-/
import DocumentSql.Select.Run

namespace DocumentSql

/-- What a query sees of a fetch. -/
def rowsFetched (result : Except StoreError (List Document)) : Except StoreError (List Row) :=
  result.map (List.map (·.data))

theorem rowsFetched_eq_ok {result : Except StoreError (List Document)} {rows : List Row}
    (h : rowsFetched result = .ok rows) :
    ∃ documents, result = .ok documents ∧ documents.map (·.data) = rows := by
  cases result with
  | error e => cases h
  | ok documents => exact ⟨documents, rfl, Except.ok.inj h⟩

/-- Of the documents that are joined only the rows count. -/
theorem joinRows_congr {right right' : List Document}
    (h : right.map (·.data) = right'.map (·.data)) (left : List Row) (on : JoinOn)
    (leftTable rightTable : String) (rightColumns : List String) :
    joinRows left right on leftTable rightTable rightColumns =
      joinRows left right' on leftTable rightTable rightColumns := by
  unfold joinRows
  refine congrArg (List.flatMap · left) (funext fun row => ?_)
  cases leftCell? row leftTable (Column.bareName on.left) with
  | none => rfl
  | some value =>
    have hrows : ∀ documents : List Document,
        (documents.filter (matchesCell (Column.bareName on.right) value)).map
            (fun d => mergeRow rightTable rightColumns row d.data) =
          ((documents.map (·.data)).filter fun data =>
            matchesCell (Column.bareName on.right) value ⟨"", data⟩).map
              (mergeRow rightTable rightColumns row) := by
      intro documents
      rw [List.filter_map, List.map_map]
      rfl
    simp only [hrows, h]

namespace Plan

variable {p : Plan}

/-- Two lists of fetched documents show the same rows for every table. -/
def ShowsSame (fetched fetched' : Fetched) : Prop :=
  ∀ table, (documentsOf fetched table).map (·.data) = (documentsOf fetched' table).map (·.data)

theorem ShowsSame.cons {fetched fetched' : Fetched} (h : ShowsSame fetched fetched')
    {documents documents' : List Document} (hd : documents.map (·.data) = documents'.map (·.data))
    (name : String) :
    ShowsSame ((name, documents) :: fetched) ((name, documents') :: fetched') := by
  intro table
  by_cases hn : name = table
  · simp [documentsOf, Entries.find?, hn, hd]
  · simpa [documentsOf, Entries.find?, hn] using h table

theorem joinedRows_congr {fetched fetched' : Fetched} (h : ShowsSame fetched fetched')
    (joins : List Join) : p.joinedRows fetched joins = p.joinedRows fetched' joins := by
  have hnext : p.joinNext fetched = p.joinNext fetched' :=
    funext fun rows => funext fun j => joinRows_congr (h j.table) rows _ _ _ _
  rw [joinedRows, joinedRows, hnext, h]

/-- Fetching the tables of a plan fails alike, or gives the same rows. -/
theorem fetchTables_congr {fetch fetch' : Fetch} {rowCap : Nat} : ∀ {tables : List TableSchema},
    (∀ t ∈ tables, rowsFetched (fetch t (p.predicatesFor t.name) rowCap) =
      rowsFetched (fetch' t (p.predicatesFor t.name) rowCap)) →
    (∃ e, p.fetchTables fetch rowCap tables = .error e ∧
        p.fetchTables fetch' rowCap tables = .error e) ∨
      ∃ fetched fetched', p.fetchTables fetch rowCap tables = .ok fetched ∧
        p.fetchTables fetch' rowCap tables = .ok fetched' ∧ ShowsSame fetched fetched'
  | [], _ => .inr ⟨[], [], rfl, rfl, fun _ => rfl⟩
  | t :: tables, h => by
    rw [List.forall_mem_cons] at h
    obtain ⟨ht, hrest⟩ := h
    cases hf : fetch t (p.predicatesFor t.name) rowCap with
    | error e =>
      rw [hf] at ht
      cases hf' : fetch' t (p.predicatesFor t.name) rowCap with
      | error e' =>
        rw [hf'] at ht
        obtain rfl := Except.error.inj ht
        refine .inl ⟨.store t.name e, ?_, ?_⟩
        · simp only [fetchTables, hf]
        · simp only [fetchTables, hf']
      | ok documents' => rw [hf'] at ht; cases ht
    | ok documents =>
      rw [hf] at ht
      obtain ⟨documents', hf', hd⟩ := rowsFetched_eq_ok ht.symm
      simp only [fetchTables, hf, hf']
      rcases fetchTables_congr hrest with ⟨e, he, he'⟩ | ⟨fetched, fetched', hok, hok', hsame⟩
      · exact .inl ⟨e, by rw [he]; rfl, by rw [he']; rfl⟩
      · exact .inr ⟨_, _, by rw [hok]; rfl, by rw [hok']; rfl, hsame.cons hd.symm t.name⟩

end Plan

/-- A query is answered if it has a plan whose documents can be fetched. -/
theorem execute_eq_ok_iff {q : Query} {schema : ProjectSchema} {fetch : Fetch} {rowCap : Nat}
    {rows : List Row} :
    execute q schema fetch rowCap = .ok rows ↔
      ∃ p fetched, Plan.ofQuery q schema = .ok p ∧ p.fetchTables fetch rowCap p.tables = .ok fetched ∧
        p.resultRows q (p.joinedRows fetched q.joins) = rows := by
  unfold execute
  cases hp : Plan.ofQuery q schema with
  | error e => simp [bind, Except.bind]
  | ok p =>
    cases hf : p.fetchTables fetch rowCap p.tables with
    | error e => simp [bind, Except.bind, hf]
    | ok fetched => simp [bind, Except.bind, pure, Except.pure, hf]

/-- The rows of a query are determined by the rows that are fetched for its plan. -/
theorem execute_congr {q : Query} {schema : ProjectSchema} {fetch fetch' : Fetch} {rowCap : Nat}
    (h : ∀ p, Plan.ofQuery q schema = .ok p → ∀ t ∈ p.tables,
      rowsFetched (fetch t (p.predicatesFor t.name) rowCap) =
        rowsFetched (fetch' t (p.predicatesFor t.name) rowCap)) :
    execute q schema fetch rowCap = execute q schema fetch' rowCap := by
  unfold execute
  cases hp : Plan.ofQuery q schema with
  | error e => rfl
  | ok p =>
    simp only [bind, Except.bind, pure, Except.pure]
    rcases Plan.fetchTables_congr (h p hp) with ⟨e, he, he'⟩ | ⟨fetched, fetched', hok, hok', hsame⟩
    · rw [he, he']
    · rw [hok, hok']
      simp only [Plan.joinedRows_congr hsame]

/-- Sources with the same schema, that fetch the same rows for the plan of the query, give the same
answer or fail alike. -/
theorem RowSource.answer_congr {source source' : RowSource} {rowCap : Nat} {project sql : String}
    (hschema : source.schema project = source'.schema project)
    (hfetch : ∀ schema, source.schema project = .ok schema →
      ∀ p, Plan.ofQuery (.ofText sql) schema = .ok p → ∀ t ∈ p.tables,
        rowsFetched (source.fetch t (p.predicatesFor t.name) rowCap) =
          rowsFetched (source'.fetch t (p.predicatesFor t.name) rowCap)) :
    source.answer rowCap project sql = source'.answer rowCap project sql := by
  unfold RowSource.answer
  rw [← hschema]
  cases hs : source.schema project with
  | error e => rfl
  | ok schema => simp only [execute_congr (hfetch schema hs)]

end DocumentSql
