/-
# What is fetched for an accepted query

For each table of an accepted query the documents that satisfy the conditions
routed to it are fetched, the first `rowCap` of them (`fetchTables_eq`). The
names that meet in a merged row come from the schema and from the base table's
documents; if none of them has a dot, every tuple of fetched documents is one
whose keys do not meet (`Accepts.isApart_of_names`, `Accepts.isApart`), and it
has a document of each table of the query (`Accepts.exists_document`).

Key definitions: `ProjectSchema.IsDotFree`, `Plan.withDocuments`,
`MemoryStore.selected`.
Key theorems: `Plan.Accepts.fetchTables_eq`, `Plan.Accepts.isApart_of_names`,
`Plan.Accepts.exists_document`.
-/
import DocumentSql.Proofs.Select.Accepted
import DocumentSql.Proofs.Select.Tuple
import DocumentSql.Proofs.Store.Reachable

namespace DocumentSql

/-- No table and no column of the project has a dot in its name. -/
structure ProjectSchema.IsDotFree (schema : ProjectSchema) : Prop where
  tables : ∀ t ∈ schema.tables, Column.IsDotFree t.name
  columns : ∀ t ∈ schema.tables, ∀ c ∈ t.columns, Column.IsDotFree c

/-- The documents that a plan has fetched for a table: the first that satisfy its predicates. -/
def MemoryStore.selected (s : MemoryStore) (project : String) (p : Plan) (rowCap : Nat)
    (table : String) : List Document :=
  ((s.documentsOf project table).filter (holdsAll (p.predicatesFor table))).take rowCap

theorem MemoryStore.mem_of_mem_selected {s : MemoryStore} {project : String} {p : Plan}
    {rowCap : Nat} {table : String} {d : Document} (h : d ∈ s.selected project p rowCap table) :
    d ∈ s.documentsOf project table := (List.mem_filter.mp (List.mem_of_mem_take h)).1

namespace Plan

/-- The tables, each with its documents. -/
def withDocuments (tables : List String) (documents : String → List Document) : Fetched :=
  tables.map fun t => (t, documents t)

theorem documentsOf_withDocuments (tables : List String) (documents : String → List Document)
    (table : String) :
    documentsOf (withDocuments tables documents) table =
      if table ∈ tables then documents table else [] := by
  rw [documentsOf, withDocuments, Entries.find?_map_pair]
  split <;> rfl

/-- If every table can be fetched, they all are. -/
theorem fetchTables_of_forall {p : Plan} {fetch : Fetch} {rowCap : Nat}
    {documents : String → List Document} : ∀ {tables : List TableSchema},
    (∀ t ∈ tables, fetch t (p.predicatesFor t.name) rowCap = .ok (documents t.name)) →
    p.fetchTables fetch rowCap tables = .ok (withDocuments (tables.map (·.name)) documents)
  | [], _ => rfl
  | t :: tables, h => by
    rw [List.forall_mem_cons] at h
    rw [fetchTables, h.1]
    simp only
    rw [fetchTables_of_forall h.2]
    rfl

namespace Accepts

variable {s : MemoryStore} {project : String} {schema : ProjectSchema} {q : Query} {p : Plan}

/-- What is fetched for an accepted query. -/
theorem fetchTables_eq (h : Accepts q schema p) (hs : s.Reachable) (hids : s.HasColonFreeIds)
    (hschema : s.schema project = .ok schema) (rowCap : Nat) :
    p.fetchTables s.fetch rowCap p.tables =
      .ok (withDocuments q.tables (s.selected project p rowCap)) := by
  rw [← h.names_tables]
  exact fetchTables_of_forall fun t ht =>
    hs.fetch_eq hids hschema (h.mem_schema ht) (p.predicatesFor t.name) rowCap

/-- The rows of an accepted query, from what is fetched. -/
theorem execute_eq (h : Accepts q schema p) (hs : s.Reachable) (hids : s.HasColonFreeIds)
    (hschema : s.schema project = .ok schema) (rowCap : Nat) :
    execute q schema s.fetch rowCap =
      .ok (p.resultRows q (p.joinedRows
        (withDocuments q.tables (s.selected project p rowCap)) q.joins)) := by
  have hp : ofQuery q schema = .ok p := ofQuery_eq_ok_iff.mpr h
  have hf := h.fetchTables_eq hs hids hschema rowCap
  simp only [execute, hp, hf, bind, Except.bind, pure, Except.pure]

/-! ### Tuples of documents of the query's tables -/

theorem mem_tables (h : Accepts q schema p) {name : String} (hn : name ∈ q.tables) :
    ∃ t ∈ p.tables, t.name = name := List.mem_map.mp (h.names_tables ▸ hn)

theorem base_mem (h : Accepts q schema p) : p.scope.base ∈ q.tables :=
  h.base_eq ▸ List.head_mem h.nonempty

theorem isDotFree_table (h : Accepts q schema p) (hd : schema.IsDotFree) {name : String}
    (hn : name ∈ q.tables) : Column.IsDotFree name := by
  obtain ⟨t, ht, rfl⟩ := h.mem_tables hn
  exact hd.tables t (h.mem_schema ht)

theorem columnsOf_eq (h : Accepts q schema p) {t : TableSchema} (ht : t ∈ p.tables) :
    p.columnsOf t.name = t.columns := by
  simp only [columnsOf, h.plan_table? ht]

theorem mem_tables_of_mem_columnsOf (h : Accepts q schema p) {name column : String}
    (hc : column ∈ p.columnsOf name) : name ∈ q.tables := by
  unfold columnsOf at hc
  split at hc
  · rename_i t ht
    have hname : t.name = name := by simpa using List.find?_some ht
    rw [← hname, ← h.names_tables]
    exact List.mem_map_of_mem (List.mem_of_find?_eq_some ht)
  · cases hc

theorem isDotFree_column (h : Accepts q schema p) (hd : schema.IsDotFree) {name column : String}
    (hc : column ∈ p.columnsOf name) : Column.IsDotFree column := by
  unfold columnsOf at hc
  split at hc
  · rename_i t ht
    exact hd.columns t (h.mem_schema (List.mem_of_find?_eq_some ht)) column hc
  · cases hc

/-- A table stands for itself if it is not the alias of another one. -/
theorem tableOf_of_mem (h : Accepts q schema p)
    (hal : ∀ e ∈ q.aliases.entries, e.1 ∈ q.tables → e.1 = e.2) {name : String}
    (hm : name ∈ q.tables) : p.scope.tableOf name = name := by
  rw [h.scope]
  unfold Scope.tableOf
  cases hg : q.aliases.get? name with
  | none => rfl
  | some table => exact (hal _ ((OrderedMap.get?_eq_some_iff _ _ _).mp hg) hm).symm

variable {fetched : Fetched} {tuple : Tuple}

/-- A tuple of documents of the query's tables begins with one of the base table, and the others
are those of the joined tables, in order. -/
theorem exists_eq_cons (ht : tuple ∈ tuples (p.sources fetched q.joins)) :
    ∃ d rest, tuple = (p.scope.base, d) :: rest ∧ rest.map Prod.fst = q.joins.map (·.table) := by
  have hnames := names_of_mem_tuples ht
  obtain ⟨⟨base, d⟩, rest, rfl⟩ : ∃ e rest, tuple = e :: rest := by
    cases tuple with
    | nil => simp [sources] at hnames
    | cons e rest => exact ⟨e, rest, rfl⟩
  simp only [sources, List.map_cons, List.map_map, List.cons.injEq] at hnames
  exact ⟨d, rest, by rw [hnames.1], hnames.2⟩

theorem names_of_tuple {d : Document} {rest : Tuple}
    (ht : (p.scope.base, d) :: rest ∈ tuples (p.sources fetched q.joins)) :
    rest.map Prod.fst = q.joins.map (·.table) := by
  obtain ⟨d', rest', he, hn⟩ := exists_eq_cons ht
  obtain ⟨-, rfl⟩ := List.cons.inj he
  exact hn

/-- Without dots in names, the keys of the base table and of the joined tables do not meet. -/
theorem isApart_of_names (h : Accepts q schema p) (hd : schema.IsDotFree) {d : Document}
    {rest : Tuple} (hkeys : ∀ key ∈ d.data.keys, Column.IsDotFree key)
    (hnames : rest.map Prod.fst = q.joins.map (·.table)) (hrest : ∀ e ∈ rest, e.1 ∈ q.tables) :
    Tuple.IsApart p.scope.base d rest where
  base_dotFree := h.isDotFree_table hd h.base_mem
  keys_dotFree := hkeys
  names_dotFree e he := h.isDotFree_table hd (hrest e he)
  base_notMem := hnames ▸ h.base_notMem_joined
  names_nodup := hnames ▸ h.joined_nodup

variable {documents : String → List Document}

/-- Each document of a tuple is one of a table of the query. -/
theorem mem_documents
    (ht : tuple ∈ tuples (p.sources (withDocuments q.tables documents) q.joins))
    {e : String × Document} (he : e ∈ tuple) : e.1 ∈ q.tables ∧ e.2 ∈ documents e.1 := by
  obtain ⟨source, hs, h1, h2⟩ := exists_source_of_mem ht he
  have hdoc : source.2 = documentsOf (withDocuments q.tables documents) source.1 := by
    rcases List.mem_cons.mp hs with rfl | hs
    · rfl
    · obtain ⟨j, -, rfl⟩ := List.mem_map.mp hs
      rfl
  rw [hdoc, documentsOf_withDocuments] at h2
  split at h2
  · rename_i hq
    exact ⟨h1 ▸ hq, h1 ▸ h2⟩
  · cases h2

/-- Without dots in names, the keys of the tables of a tuple do not meet. -/
theorem isApart (h : Accepts q schema p) (hd : schema.IsDotFree)
    (hkeys : ∀ d ∈ documents p.scope.base, ∀ key ∈ d.data.keys, Column.IsDotFree key)
    {d : Document} {rest : Tuple}
    (ht : (p.scope.base, d) :: rest ∈
      tuples (p.sources (withDocuments q.tables documents) q.joins)) :
    Tuple.IsApart p.scope.base d rest := by
  refine h.isApart_of_names hd ?_ (names_of_tuple ht) fun e he => ?_
  · exact hkeys d (mem_documents ht List.mem_cons_self).2
  · exact (mem_documents ht (List.mem_cons_of_mem _ he)).1

/-- A tuple has a document of every table of the query. -/
theorem exists_document (h : Accepts q schema p)
    (ht : tuple ∈ tuples (p.sources (withDocuments q.tables documents) q.joins))
    {table : String} (hq : table ∈ q.tables) : ∃ e, (table, e) ∈ tuple := by
  obtain ⟨d, rest, rfl, hn⟩ := exists_eq_cons ht
  by_cases hb : table = p.scope.base
  · exact ⟨d, hb ▸ List.mem_cons_self⟩
  · have hj := h.mem_joined hq hb
    rw [← hn] at hj
    obtain ⟨e, he, rfl⟩ := List.mem_map.mp hj
    exact ⟨e.2, List.mem_cons_of_mem _ he⟩

end Accepts
end Plan

/-! ### A store with two tables -/

deriving instance DecidableEq for Scope, Plan

namespace Sample

/-- Users, one of them without a name but with a key that the schema does not list, and their
orders, with a rating in the column `*`. -/
def projects : List Fixture.Project :=
  [⟨"shop", [
    ⟨"users", ["id", "name"], [
      .ofList [("id", .int 1), ("name", .text "Ann")],
      .ofList [("id", .int 2), ("user_id", .int 9)]]⟩,
    ⟨"orders", ["id", "user_id", "name", "*"], [
      .ofList [("id", .int 7), ("user_id", .int 1), ("name", .text "pen")],
      .ofList [("id", .int 8), ("user_id", .int 2), ("name", .text "ink"), ("*", .int 5)]]⟩]⟩]

def shop : MemoryStore := (Fixture.load projects).toOption.getD .empty

def schema : ProjectSchema :=
  ⟨"shop", [⟨"shop:users", "users", ["id", "name"]⟩,
    ⟨"shop:orders", "orders", ["id", "user_id", "name", "*"]⟩]⟩

/-- The plan of a statement that is accepted. -/
def planOf (sql : String) : Plan :=
  (Plan.ofQuery (.ofText sql) schema).toOption.getD ⟨⟨[], .empty⟩, [], []⟩

/-- What is fetched for it. -/
def fetchedOf (sql : String) : Fetched :=
  ((planOf sql).fetchTables shop.fetch 2 (planOf sql).tables).toOption.getD []

/-- The tuples behind its joined rows. -/
def tuplesOf (sql : String) : List Tuple :=
  (tuples ((planOf sql).sources (fetchedOf sql) (Query.ofText sql).joins)).filter
    ((planOf sql).combines (Query.ofText sql).joins)

theorem shop_reachable : shop.Reachable := @MemoryStore.Reachable.loaded projects shop rfl

theorem shop_hasColonFreeIds : shop.HasColonFreeIds := by
  unfold MemoryStore.HasColonFreeIds
  decide +kernel

theorem shop_schema : shop.schema "shop" = .ok schema := rfl

theorem schema_isDotFree : schema.IsDotFree := ⟨by decide, by decide⟩

theorem shop_keys_isDotFree : ∀ t ∈ schema.tables, ∀ d ∈ shop.documentsOf "shop" t.name,
    ∀ key ∈ d.data.keys, Column.IsDotFree key := by decide +kernel

end Sample
end DocumentSql
