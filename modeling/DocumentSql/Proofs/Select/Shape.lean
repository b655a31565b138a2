/-
# The shape of a result

All rows of a result have the same keys in the same order, whatever the
documents hold (`execute_sameShape`). The keys can be told from the query and
the schema (`Query.resultKeys`): the select list with every `*` written out, or
the group columns, bare and as written, and then the names of the aggregates.
Only whether any row was joined counts besides, since aggregates of no rows at
all stand alone. Keys that occur again are left out.

So a report, which takes its columns from the first row, shows all cells of a
result. But not of every result there is a table: a cell whose text is too long
to be padded is shown by the other reports only (`Sample.table?_execute_scroll`).

Key definitions: `Query.starKeys`, `Query.resultKeys`.
Key theorems: `Plan.Accepts.keys_projectRow`, `keys_of_mem_aggregateRows`,
`execute_sameShape`.
-/
import DocumentSql.Proofs.Report.Columns
import DocumentSql.Proofs.Select.Grouping
import DocumentSql.Proofs.Select.Reference
import DocumentSql.Proofs.Select.Sources

namespace DocumentSql

/-! ### The keys that a query and a schema give -/

/-- The columns that a project lists for a table. -/
def ProjectSchema.columnsOf (schema : ProjectSchema) (table : String) : List String :=
  ((schema.table? table).map (·.columns)).getD []

namespace Query

variable (q : Query) (schema : ProjectSchema)

/-- The tables of the query that are joined. -/
def joinedTables : List String := q.tables.filter fun t => q.joins.any (·.table == t)

/-- The keys that `*` stands for: the columns of the first table, and `table.column` for those of
the joined tables. -/
def starKeys : List String :=
  q.tables.head?.elim [] schema.columnsOf ++
    q.joinedTables.flatMap fun t => (schema.columnsOf t).map (Column.qualified t)

/-- The select list, with every `*` written out. -/
def selectKeys : List String := q.columns.flatMap fun c => if c = "*" then q.starKeys schema else [c]

/-- The group columns, each bare and as written. -/
def groupNames : List String := q.groupBy.flatMap fun c => [Column.bareName c, c]

/-- The names of the aggregates. -/
def outputNames : List String := q.aggregates.map Aggregate.outputName

/-- The keys of every row of the result. Aggregates of no rows at all have no group columns. -/
def resultKeys (isEmpty : Bool) : List String :=
  Sql.distinct <|
    if q.isAggregate then (if isEmpty then [] else q.groupNames) ++ q.outputNames
    else q.selectKeys schema

end Query

/-! ### The keys of the rows that are built -/

theorem keys_aggregateGroup (scope : Scope) (aggregates : List Aggregate) (rows : List Row) :
    (aggregateGroup scope aggregates rows).keys =
      Sql.distinct (aggregates.map Aggregate.outputName) := by
  rw [aggregateGroup, OrderedMap.keys_ofList, List.map_map]
  rfl

theorem keys_groupRow (scope : Scope) (aggregates : List Aggregate) (groupBy : List String)
    (rows : List Row) :
    (groupRow scope aggregates groupBy rows).keys =
      Sql.distinct ((groupBy.flatMap fun c => [Column.bareName c, c]) ++
        aggregates.map Aggregate.outputName) := by
  have hcolumns : (groupColumns scope groupBy rows).keys =
      Sql.distinct (groupBy.flatMap fun c => [Column.bareName c, c]) := by
    rw [groupColumns, OrderedMap.keys_ofList, List.map_flatMap]
    rfl
  have hgroup : (aggregateGroup scope aggregates rows).entries.map Prod.fst =
      Sql.distinct (aggregates.map Aggregate.outputName) := keys_aggregateGroup scope aggregates rows
  rw [groupRow, OrderedMap.keys_insertAll, hcolumns, hgroup, Sql.distinct_distinct_append,
    Sql.distinct_append_distinct]

/-- The keys of a row of groups or aggregates. Without rows there is no group, only the aggregates. -/
theorem keys_of_mem_aggregateRows {scope : Scope} {aggregates : List Aggregate}
    {groupBy : List String} {rows : List Row} {row : Row}
    (h : row ∈ aggregateRows scope aggregates groupBy rows) :
    row.keys = Sql.distinct
      ((if rows.isEmpty then [] else groupBy.flatMap fun c => [Column.bareName c, c]) ++
        aggregates.map Aggregate.outputName) := by
  unfold aggregateRows at h
  by_cases hsingle : (groupBy.isEmpty || (rows.isEmpty && !aggregates.isEmpty)) = true
  · have hnames : (if rows.isEmpty then [] else groupBy.flatMap fun c => [Column.bareName c, c]) =
        [] := by
      rw [Bool.or_eq_true, Bool.and_eq_true, List.isEmpty_iff] at hsingle
      rcases hsingle with hgroup | hempty
      · rw [hgroup, List.flatMap_nil, ite_self]
      · rw [if_pos hempty.1]
    rw [if_pos hsingle, List.mem_singleton] at h
    rw [h, keys_aggregateGroup, hnames, List.nil_append]
  · rw [if_neg hsingle] at h
    obtain ⟨members, hmembers, rfl⟩ := List.mem_map.mp h
    -- there is a group, so there are rows
    have hrows : ¬ rows.isEmpty = true := by
      intro hempty
      rw [List.isEmpty_iff.mp hempty] at hmembers
      cases hmembers
    rw [keys_groupRow, if_neg hrows]

namespace Plan
namespace Accepts

variable {q : Query} {schema : ProjectSchema} {p : Plan}

theorem columnsOf_of_mem (h : Accepts q schema p) {table : String} (ht : table ∈ q.tables) :
    p.columnsOf table = schema.columnsOf table := by
  obtain ⟨t, hmem, rfl⟩ := h.mem_tables ht
  rw [h.columnsOf_eq hmem, ProjectSchema.columnsOf, h.table?_of_mem hmem]
  rfl

theorem joinedTables_eq (h : Accepts q schema p) : q.joinedTables = p.scope.tables.tail := by
  have hbase : ¬ (q.joins.any (·.table == p.scope.base)) = true := by
    simpa using h.base_notMem_joined
  have htail : ∀ t ∈ p.scope.tables.tail, q.joins.any (·.table == t) = true := by
    intro t ht
    simpa using h.mem_joined_of_mem_tail ht
  rw [Query.joinedTables, h.tables_eq_cons, List.filter_cons, if_neg hbase,
    List.filter_eq_self.mpr htail]

theorem starKeys_eq_query (h : Accepts q schema p) : p.starKeys q.joins = q.starKeys schema := by
  have hhead : q.tables.head?.elim [] schema.columnsOf = p.columnsOf p.scope.base := by
    rw [h.columnsOf_of_mem h.base_mem, h.tables_eq_cons]
    rfl
  rw [h.starKeys_eq, Query.starKeys, hhead, h.joinedTables_eq]
  refine congrArg (_ ++ ·) (List.flatMap_congr fun t ht => ?_)
  rw [h.columnsOf_of_mem (h.mem_of_mem_tail ht)]

theorem keys_projectRow (h : Accepts q schema p) (row : Row) :
    (p.projectRow q row).keys = Sql.distinct (q.selectKeys schema) := by
  have hitem : ∀ c, (p.selectCells q.joins row c).map Prod.fst =
      if c = "*" then q.starKeys schema else [c] := by
    intro c
    unfold selectCells
    split
    · rw [List.map_map, ← h.starKeys_eq_query]
      exact List.map_id _
    · rfl
  rw [projectRow, OrderedMap.keys_ofList, List.map_flatMap, Query.selectKeys]
  simp only [hitem]

theorem keys_resultRows (h : Accepts q schema p) (joined : List Row) {row : Row}
    (hrow : row ∈ p.resultRows q joined) : row.keys = q.resultKeys schema joined.isEmpty := by
  unfold resultRows at hrow
  unfold Query.resultKeys
  by_cases hagg : q.isAggregate = true
  · rw [if_pos hagg] at hrow ⊢
    exact keys_of_mem_aggregateRows hrow
  · rw [if_neg hagg] at hrow ⊢
    obtain ⟨source, -, rfl⟩ := List.mem_map.mp hrow
    exact h.keys_projectRow source

end Accepts

/-- Aggregates without groups, or of no rows, make up one row. -/
theorem length_resultRows {p : Plan} {q : Query} {joined : List Row} (hagg : q.isAggregate = true)
    (hsingle : q.groupBy = [] ∨ joined = [] ∧ q.aggregates ≠ []) :
    (p.resultRows q joined).length = 1 := by
  have hcond : (q.groupBy.isEmpty || (joined.isEmpty && !q.aggregates.isEmpty)) = true := by
    rcases hsingle with hgroup | ⟨hjoined, haggregates⟩
    · simp [hgroup]
    · simp [hjoined, haggregates]
  rw [resultRows, if_pos hagg, aggregateRows, if_pos hcond, List.length_singleton]

end Plan

/-! ### The rows of a query -/

/-- The rows of a result, made of the joined rows, have one shape, and reports show all of it. -/
structure Query.HasShape (q : Query) (schema : ProjectSchema) (joined rows : List Row) : Prop where
  keys_eq : ∀ row ∈ rows, row.keys = q.resultKeys schema joined.isEmpty
  /-- Aggregates without groups, or of no rows at all, stand alone. -/
  length_eq_one : q.isAggregate = true → q.groupBy = [] ∨ joined = [] ∧ q.aggregates ≠ [] →
    rows.length = 1
  showsAll : Report.ShowsAll rows

/-- All rows of a result have the keys that the query and the schema give, whatever is fetched. A
report of them leaves out no cell, though there is no table if a text is too long. -/
theorem execute_sameShape {q : Query} {schema : ProjectSchema} {fetch : Fetch} {rowCap : Nat}
    {rows : List Row} (h : execute q schema fetch rowCap = .ok rows) :
    ∃ p fetched, Plan.ofQuery q schema = .ok p ∧
      p.fetchTables fetch rowCap p.tables = .ok fetched ∧
      q.HasShape schema (p.joinedRows fetched q.joins) rows := by
  obtain ⟨p, fetched, hp, hf, rfl⟩ := execute_eq_ok_iff.mp h
  have haccepts : Plan.Accepts q schema p := Plan.ofQuery_eq_ok_iff.mp hp
  have hkeys : ∀ row ∈ p.resultRows q (p.joinedRows fetched q.joins),
      row.keys = q.resultKeys schema (p.joinedRows fetched q.joins).isEmpty := by
    intro row hrow
    exact haccepts.keys_resultRows _ hrow
  have hshows := Report.showsAll_of_isUniform (Report.isUniform_of_forall_keys_eq hkeys)
  exact ⟨p, fetched, hp, hf, hkeys, Plan.length_resultRows, hshows⟩

namespace Sample

/-- How many orders each user has, by name; one user has no name. -/
def orderCounts : String :=
  "SELECT u.name, COUNT(*) AS n FROM users u JOIN orders o ON o.user_id = u.id GROUP BY u.name"

theorem execute_sameShape_orderCounts :
    execute (.ofText orderCounts) schema shop.fetch 2 = .ok
        [.ofList [("name", .text "Ann"), ("u.name", .text "Ann"), ("n", .int 1)],
          .ofList [("name", .text "ink"), ("u.name", .text "ink"), ("n", .int 1)]] ∧
      (Query.ofText orderCounts).resultKeys schema false = ["name", "u.name", "n"] ∧
      ∃ p fetched, Plan.ofQuery (.ofText orderCounts) schema = .ok p ∧
        p.fetchTables shop.fetch 2 p.tables = .ok fetched ∧
        (Query.ofText orderCounts).HasShape schema
          (p.joinedRows fetched (Query.ofText orderCounts).joins)
          [.ofList [("name", .text "Ann"), ("u.name", .text "Ann"), ("n", .int 1)],
            .ofList [("name", .text "ink"), ("u.name", .text "ink"), ("n", .int 1)]] := by
  have hrows : execute (.ofText orderCounts) schema shop.fetch 2 = .ok
      [.ofList [("name", .text "Ann"), ("u.name", .text "Ann"), ("n", .int 1)],
        .ofList [("name", .text "ink"), ("u.name", .text "ink"), ("n", .int 1)]] := by
    decide +kernel
  exact ⟨hrows, by decide +kernel, execute_sameShape hrows⟩

/-- A store with one row, the text of which is too long for a table. -/
def archive : MemoryStore :=
  ((MemoryStore.empty.createTable "shop" "notes" ["body"]).insertRow "shop" "notes" scroll).toOption.elim
    .empty Prod.fst

/-- The row is the result of a query, and there is no table that shows its cell. -/
theorem table?_execute_scroll :
    execute (.ofText "SELECT body FROM notes") ⟨"shop", [⟨"shop:notes", "notes", ["body"]⟩]⟩
        archive.fetch 1000 = .ok [scroll] ∧
      ∀ rowCount milliseconds, Report.table? [scroll] rowCount milliseconds = none := by
  have hquery : Query.ofText "SELECT body FROM notes" =
      { kind := .select, tables := ["notes"], columns := ["body"] } := by decide +kernel
  rw [hquery]
  exact ⟨rfl, table?_scroll⟩

end Sample
end DocumentSql
