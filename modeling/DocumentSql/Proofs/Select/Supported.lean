/-
# Which queries are answered

A query is answered exactly when it is a valid SELECT that keeps to what is
offered and names what the project has (`Query.IsSupported`): inner joins with
`=` that bring in each table behind the first one, once; conditions joined by
AND and without IN; known tables; and WHERE columns that a table of the query
lists, the one that the table part stands for if there is such a part.

The checks establish this and nothing else (`Plan.exists_ofQuery_iff`). Behind
them nothing can fail: a table of a schema is found under its identifier in the
store that the schema is from (`MemoryStore.exists_fetch`). So a query that is
not answered is refused by a check (`QueryError.IsRefusal`), never for a fault
of the store.

Key definitions: `Column.HasParts`, `Query.IsSupported`, `QueryError.IsRefusal`.
Key theorems: `Plan.exists_ofQuery_iff`, `Plan.isRefusal_of_ofQuery`,
`MemoryStore.exists_fetch`, `execute_supported`.
-/
import DocumentSql.Proofs.Select.Fetched
import DocumentSql.Proofs.Select.Sources
import DocumentSql.Proofs.Sql.Statement

namespace DocumentSql

/-! ### What is offered -/

/-- The reference has a table part: its first dot stands between two texts that are not empty. -/
structure Column.HasParts (text name column : String) : Prop where
  text_eq : text = Column.qualified name column
  dotFree : Column.IsDotFree name
  name_ne : name ≠ ""
  column_ne : column ≠ ""

theorem Column.hasParts_iff {text name column : String} :
    Column.HasParts text name column ↔ Column.split text = (some name, column) := by
  constructor
  · rintro ⟨rfl, hd, hn, hc⟩
    exact Column.split_qualified hd hn hc
  · intro h
    obtain ⟨he, hd, hn, hc⟩ := Column.split_eq_some h
    exact ⟨he, hd, hn, hc⟩

/-- The table that a table part of the query stands for: that of the alias, or else itself. -/
def Query.tableNamed (q : Query) (name : String) : String := (q.aliases.get? name).getD name

/-- The table is one of the query, and its schema lists the column. -/
def Query.Lists (q : Query) (schema : ProjectSchema) (table column : String) : Prop :=
  table ∈ q.tables ∧ ∃ t ∈ schema.tables, t.name = table ∧ column ∈ t.columns

/-- The WHERE column is one of a table of the query: with a table part, of the table that the part
stands for. -/
structure Query.Resolves (q : Query) (schema : ProjectSchema) (text : String) : Prop where
  parted : ∀ name column, Column.HasParts text name column →
    q.Lists schema (q.tableNamed name) column
  bare : (∀ name column, ¬ Column.HasParts text name column) →
    ∃ table, q.Lists schema table text

/-- The query keeps to what is offered, and names what the project has. -/
structure Query.IsSupported (q : Query) (schema : ProjectSchema) : Prop where
  valid : q.isValid = true
  kind : q.kind = .select
  joins_inner : ∀ j ∈ q.joins, j.kind = .inner ∧ j.on.operator = "="
  joined_nodup : (q.joins.map (·.table)).Nodup
  first_notMem : ∀ first ∈ q.tables.head?, first ∉ q.joins.map (·.table)
  tail_joined : ∀ table ∈ q.tables.tail, table ∈ q.joins.map (·.table)
  conditions : ∀ c ∈ q.conditions, c.comparison ≠ .inList ∧ c.connector ≠ some .or
  tables : ∀ table ∈ q.tables, ∃ t ∈ schema.tables, t.name = table
  columns : ∀ c ∈ q.conditions, q.Resolves schema c.column

/-- The asker is at fault: the text is no statement, asks for what is not offered, or names a table
or column that is not there. -/
def QueryError.IsRefusal : QueryError → Prop
  | .invalid _ | .noTable | .unsupported _ | .tableNotFound _ | .columnNotFound _ _ => True
  | .store _ _ | .catalog _ => False

/-! ### The checks pass -/

theorem exists_findTables_iff {schema : ProjectSchema} : ∀ {names : List String},
    (∃ tables, findTables schema names = .ok tables) ↔
      ∀ name ∈ names, ∃ t ∈ schema.tables, t.name = name
  | [] => by simp [findTables]
  | name :: names => by
    have hfound : (∃ t, schema.table? name = some t) ↔ ∃ t ∈ schema.tables, t.name = name := by
      rw [← Option.isSome_iff_exists, ProjectSchema.table?, List.find?_isSome]
      simp
    have ih : (∃ tables, findTables schema names = .ok tables) ↔
        ∀ name ∈ names, ∃ t ∈ schema.tables, t.name = name := exists_findTables_iff
    rw [List.forall_mem_cons, ← hfound, ← ih, findTables]
    cases schema.table? name with
    | none => simp
    | some t => cases findTables schema names <;> simp [Except.map]

/-- A WHERE column with a table part is routed if the table that the part stands for lists it. -/
theorem exists_routeColumn_parted {scope : Scope} {tables : List TableSchema}
    {text name column : String} (hsplit : Column.split text = (some name, column))
    (hunique : ∀ t ∈ tables, ∀ u ∈ tables, t.name = u.name → t = u) :
    (∃ r, routeColumn scope tables text = .ok r) ↔
      ∃ t ∈ tables, t.name = scope.tableOf name ∧ column ∈ t.columns := by
  simp only [routeColumn, hsplit]
  constructor
  · rintro ⟨r, hr⟩
    split at hr
    · cases hr
    · rename_i t ht
      split at hr
      · rename_i hc
        have hname : t.name = scope.tableOf name := by simpa using List.find?_some ht
        exact ⟨t, List.mem_of_find?_eq_some ht, hname, List.contains_iff_mem.mp hc⟩
      · cases hr
  · rintro ⟨t, hmem, hname, hc⟩
    have hfind : tables.find? (·.name == scope.tableOf name) = some t := by
      refine find?_of_unique hmem (by simp [hname]) fun u hu hf => ?_
      have hu' : u.name = scope.tableOf name := by simpa using hf
      exact hunique u hu t hmem (hu'.trans hname.symm)
    have hlisted : t.hasColumn column = true := List.contains_iff_mem.mpr hc
    exact ⟨(t.name, column), by simp [hfind, hlisted]⟩

/-- One without a table part is routed if some table lists it. -/
theorem exists_routeColumn_bare {scope : Scope} {tables : List TableSchema}
    {text column : String} (hsplit : Column.split text = (none, column)) :
    (∃ r, routeColumn scope tables text = .ok r) ↔ ∃ t ∈ tables, column ∈ t.columns := by
  simp only [routeColumn, hsplit]
  have hfound : (∃ t, tables.find? (·.hasColumn column) = some t) ↔
      ∃ t ∈ tables, column ∈ t.columns := by
    rw [← Option.isSome_iff_exists, List.find?_isSome]
    simp [TableSchema.hasColumn]
  rw [← hfound]
  cases tables.find? (·.hasColumn column) <;> simp

/-- The conditions are routed if the column of each is. -/
theorem exists_routeConditions_iff {scope : Scope} {tables : List TableSchema} :
    ∀ {conditions : List Condition},
      (∃ routed, routeConditions scope tables conditions = .ok routed) ↔
        ∀ c ∈ conditions, ∃ r, routeColumn scope tables c.column = .ok r
  | [] => by simp [routeConditions]
  | c :: conditions => by
    have ih : (∃ routed, routeConditions scope tables conditions = .ok routed) ↔
        ∀ c ∈ conditions, ∃ r, routeColumn scope tables c.column = .ok r :=
      exists_routeConditions_iff
    rw [List.forall_mem_cons, ← ih, routeConditions]
    cases hc : routeColumn scope tables c.column with
    | error e => simp
    | ok r => cases routeConditions scope tables conditions <;> simp [Except.map]

/-- No two tables of the project have one name. -/
def ProjectSchema.HasDistinctNames (schema : ProjectSchema) : Prop :=
  ∀ t ∈ schema.tables, ∀ u ∈ schema.tables, t.name = u.name → t = u

/-- The schemas that are found are those of the project with the given names. -/
theorem mem_findTables_iff {schema : ProjectSchema} (hunique : schema.HasDistinctNames)
    {names : List String} {tables : List TableSchema} (h : findTables schema names = .ok tables)
    {t : TableSchema} : t ∈ tables ↔ t ∈ schema.tables ∧ t.name ∈ names := by
  obtain ⟨hnames, hfound⟩ := findTables_eq_ok h
  constructor
  · intro ht
    exact ⟨(mem_of_table? (hfound t ht)).1, hnames ▸ List.mem_map_of_mem ht⟩
  · rintro ⟨ht, hname⟩
    rw [← hnames] at hname
    obtain ⟨u, hu, he⟩ := List.mem_map.mp hname
    have hmem : u ∈ schema.tables := (mem_of_table? (hfound u hu)).1
    exact hunique u hmem t ht he ▸ hu

/-- The routing of a WHERE column succeeds exactly if the column is one of a table of the query. -/
theorem exists_routeColumn_iff {q : Query} {schema : ProjectSchema}
    (hunique : schema.HasDistinctNames) {tables : List TableSchema}
    (h : findTables schema q.tables = .ok tables) (text : String) :
    (∃ r, routeColumn ⟨q.tables, q.aliases⟩ tables text = .ok r) ↔ q.Resolves schema text := by
  have hlists : ∀ table column,
      (∃ t ∈ tables, t.name = table ∧ column ∈ t.columns) ↔ q.Lists schema table column := by
    intro table column
    simp only [mem_findTables_iff hunique h]
    constructor
    · rintro ⟨t, ⟨ht, hq⟩, rfl, hc⟩
      exact ⟨hq, t, ht, rfl, hc⟩
    · rintro ⟨hq, t, ht, rfl, hc⟩
      exact ⟨t, ⟨ht, hq⟩, rfl, hc⟩
  have hdistinct : ∀ t ∈ tables, ∀ u ∈ tables, t.name = u.name → t = u := fun t ht u hu =>
    hunique t ((mem_findTables_iff hunique h).mp ht).1 u ((mem_findTables_iff hunique h).mp hu).1
  rcases hsplit : Column.split text with ⟨name | name, column⟩
  · obtain rfl := Column.split_eq_none hsplit
    have hnone : ∀ name column', ¬ Column.HasParts column name column' := by
      intro name column' hparts
      rw [Column.hasParts_iff, hsplit] at hparts
      cases hparts
    rw [exists_routeColumn_bare hsplit]
    constructor
    · rintro ⟨t, ht, hc⟩
      exact ⟨fun name column' hparts => absurd hparts (hnone name column'),
        fun _ => ⟨t.name, (hlists _ _).mp ⟨t, ht, rfl, hc⟩⟩⟩
    · intro hresolves
      obtain ⟨table, hlisted⟩ := hresolves.bare hnone
      obtain ⟨t, ht, -, hc⟩ := (hlists _ _).mpr hlisted
      exact ⟨t, ht, hc⟩
  · have hparts : Column.HasParts text name column := Column.hasParts_iff.mpr hsplit
    have hnamed := hlists (q.tableNamed name) column
    rw [exists_routeColumn_parted hsplit hdistinct]
    constructor
    · intro hlisted
      refine ⟨fun name' column' hparts' => ?_, fun hnone => absurd hparts (hnone name column)⟩
      rw [Column.hasParts_iff, hsplit] at hparts'
      obtain ⟨hname, rfl⟩ := Prod.mk.inj hparts'
      obtain rfl := Option.some.inj hname
      exact hnamed.mp hlisted
    · intro hresolves
      exact hnamed.mpr (hresolves.parted name column hparts)

/-! ### All checks together -/

namespace Plan

/-- The checks pass exactly for the queries that are supported. -/
theorem exists_ofQuery_iff {q : Query} {schema : ProjectSchema}
    (hunique : schema.HasDistinctNames)
    (hne : q.isValid = true → q.kind = .select → q.tables ≠ []) :
    (∃ p, ofQuery q schema = .ok p) ↔ q.IsSupported schema := by
  simp only [ofQuery_eq_ok_iff]
  have hroutes : ∀ {tables}, findTables schema q.tables = .ok tables →
      ((∃ routed, routeConditions ⟨q.tables, q.aliases⟩ tables q.conditions = .ok routed) ↔
        ∀ c ∈ q.conditions, q.Resolves schema c.column) := by
    intro tables htables
    rw [exists_routeConditions_iff]
    exact forall₂_congr fun c _ => exists_routeColumn_iff hunique htables c.column
  constructor
  · rintro ⟨p, h⟩
    obtain ⟨hnew, hnodup, hinner⟩ := (checkJoins_eq_ok_iff _ _).mp h.joins
    have hrouted : routeConditions ⟨q.tables, q.aliases⟩ p.tables q.conditions = .ok p.routed :=
      h.scope ▸ h.routed
    exact {
      valid := h.valid
      kind := h.kind
      joins_inner := hinner
      joined_nodup := hnodup
      first_notMem := by
        rintro first hfirst hmem
        obtain ⟨j, hj, rfl⟩ := List.mem_map.mp hmem
        exact hnew j hj (Option.mem_toList.mpr hfirst)
      tail_joined := (crossJoined?_eq_none_iff _ _).mp h.closed
      conditions := (checkConditions_eq_ok_iff _).mp h.conditions
      tables := exists_findTables_iff.mp ⟨p.tables, h.tables⟩
      columns := (hroutes h.tables).mp ⟨p.routed, hrouted⟩ }
  · intro h
    obtain ⟨tables, htables⟩ := exists_findTables_iff.mpr h.tables
    obtain ⟨routed, hrouted⟩ := (hroutes htables).mpr h.columns
    refine ⟨⟨⟨q.tables, q.aliases⟩, tables, routed⟩, ?_⟩
    exact {
      valid := h.valid
      kind := h.kind
      joins := by
        refine (checkJoins_eq_ok_iff _ _).mpr ⟨fun j hj hfirst => ?_, h.joined_nodup, h.joins_inner⟩
        exact h.first_notMem j.table (Option.mem_toList.mp hfirst) (List.mem_map_of_mem hj)
      conditions := (checkConditions_eq_ok_iff _).mpr h.conditions
      nonempty := hne h.valid h.kind
      closed := (crossJoined?_eq_none_iff _ _).mpr h.tail_joined
      scope := rfl
      tables := htables
      routed := hrouted }

end Plan

/-! ### A check fails -/

theorem isRefusal_of_checkJoins {e : QueryError} : ∀ {joins : List Join} {earlier : List String},
    checkJoins earlier joins = .error e → e.IsRefusal
  | [], _, h => by cases h
  | j :: joins, earlier, h => by
    unfold checkJoins at h
    split at h
    · obtain rfl := Except.error.inj h
      trivial
    split at h
    · obtain rfl := Except.error.inj h
      trivial
    split at h
    · obtain rfl := Except.error.inj h
      trivial
    exact isRefusal_of_checkJoins h

theorem isRefusal_of_checkConditions {e : QueryError} : ∀ {conditions : List Condition},
    checkConditions conditions = .error e → e.IsRefusal
  | [], h => by cases h
  | c :: conditions, h => by
    unfold checkConditions at h
    split at h
    · obtain rfl := Except.error.inj h
      trivial
    split at h
    · obtain rfl := Except.error.inj h
      trivial
    exact isRefusal_of_checkConditions h

theorem isRefusal_of_findTables {schema : ProjectSchema} {e : QueryError} :
    ∀ {names : List String}, findTables schema names = .error e → e.IsRefusal
  | [], h => by cases h
  | name :: names, h => by
    unfold findTables at h
    split at h
    · obtain rfl := Except.error.inj h
      trivial
    · cases hrest : findTables schema names with
      | ok tables => rw [hrest] at h; cases h
      | error e' =>
        rw [hrest] at h
        obtain rfl := Except.error.inj h
        exact isRefusal_of_findTables hrest

theorem isRefusal_of_routeColumn {scope : Scope} {tables : List TableSchema} {text : String}
    {e : QueryError} (h : routeColumn scope tables text = .error e) : e.IsRefusal := by
  unfold routeColumn at h
  split at h
  · split at h
    · obtain rfl := Except.error.inj h
      trivial
    · split at h
      · cases h
      · obtain rfl := Except.error.inj h
        trivial
  · split at h
    · obtain rfl := Except.error.inj h
      trivial
    · cases h

theorem isRefusal_of_routeConditions {scope : Scope} {tables : List TableSchema} {e : QueryError} :
    ∀ {conditions : List Condition},
      routeConditions scope tables conditions = .error e → e.IsRefusal
  | [], h => by cases h
  | c :: conditions, h => by
    unfold routeConditions at h
    split at h
    · rename_i e' hc
      obtain rfl := Except.error.inj h
      exact isRefusal_of_routeColumn hc
    · cases hrest : routeConditions scope tables conditions with
      | ok routed => rw [hrest] at h; cases h
      | error e' =>
        rw [hrest] at h
        obtain rfl := Except.error.inj h
        exact isRefusal_of_routeConditions hrest

/-- A query that does not pass the checks is refused. -/
theorem Plan.isRefusal_of_ofQuery {q : Query} {schema : ProjectSchema} {e : QueryError}
    (h : ofQuery q schema = .error e) : e.IsRefusal := by
  unfold ofQuery at h
  simp only [bind, Except.bind, pure, Except.pure, throw, throwThe, MonadExceptOf.throw] at h
  -- each `split` takes the next check; if it fails, its error is that of the query
  split at h
  · obtain rfl := Except.error.inj h
    trivial
  split at h
  · obtain rfl := Except.error.inj h
    trivial
  split at h
  · rename_i hjoins
    obtain rfl := Except.error.inj h
    exact isRefusal_of_checkJoins hjoins
  split at h
  · rename_i hconditions
    obtain rfl := Except.error.inj h
    exact isRefusal_of_checkConditions hconditions
  split at h
  · obtain rfl := Except.error.inj h
    trivial
  split at h
  · obtain rfl := Except.error.inj h
    trivial
  split at h
  · rename_i htables
    obtain rfl := Except.error.inj h
    exact isRefusal_of_findTables htables
  split at h
  · rename_i hrouted
    obtain rfl := Except.error.inj h
    exact isRefusal_of_routeConditions hrouted
  · cases h

/-! ### Behind the checks -/

namespace MemoryStore

/-- A table of a schema is found in the store that the schema is from. -/
theorem exists_fetch {s : MemoryStore} {project : String} {schema : ProjectSchema}
    (hschema : s.schema project = .ok schema) {t : TableSchema} (ht : t ∈ schema.tables)
    (predicates : List Predicate) (limit : Nat) :
    ∃ documents, s.fetch t predicates limit = .ok documents := by
  rw [tables_of_schema hschema] at ht
  obtain ⟨table, hmem, rfl⟩ := List.mem_map.mp ht
  have hfound : (s.tableWithId? table.schema.id).isSome = true := by
    rw [tableWithId?, List.find?_isSome]
    exact ⟨table, mem_tables_iff.mpr ⟨project, hmem⟩, beq_self_eq_true _⟩
  obtain ⟨found, hfound⟩ := Option.isSome_iff_exists.mp hfound
  refine ⟨(found.documents.filter (holdsAll predicates)).take limit, ?_⟩
  simp only [fetch, hfound]

theorem WellFormed.hasDistinctNames {s : MemoryStore} (h : s.WellFormed) {project : String}
    {schema : ProjectSchema} (hschema : s.schema project = .ok schema) :
    schema.HasDistinctNames := by
  intro t ht u hu he
  rw [tables_of_schema hschema] at ht hu
  obtain ⟨t', ht', rfl⟩ := List.mem_map.mp ht
  obtain ⟨u', hu', rfl⟩ := List.mem_map.mp hu
  exact congrArg MemoryTable.schema (h.eq_of_name ht' hu' he)

theorem schema_eq_error_iff {s : MemoryStore} {project : String} :
    (∃ e, s.schema project = .error e) ↔ project ∉ s.projects.keys := by
  rw [← OrderedMap.get?_eq_none_iff, schema]
  cases s.projects.get? project <;> simp

end MemoryStore

namespace Plan

/-- If each table can be fetched, they all can. -/
theorem exists_fetchTables {p : Plan} {fetch : Fetch} {rowCap : Nat} :
    ∀ {tables : List TableSchema},
      (∀ t ∈ tables, ∃ documents, fetch t (p.predicatesFor t.name) rowCap = .ok documents) →
        ∃ fetched, p.fetchTables fetch rowCap tables = .ok fetched
  | [], _ => ⟨[], rfl⟩
  | t :: tables, h => by
    rw [List.forall_mem_cons] at h
    obtain ⟨⟨documents, ht⟩, hrest⟩ := h
    obtain ⟨fetched, hfetched⟩ := exists_fetchTables hrest
    exact ⟨(t.name, documents) :: fetched, by simp only [fetchTables, ht, hfetched]; rfl⟩

end Plan

section Execute

variable {s : MemoryStore} {project : String} {schema : ProjectSchema}

/-- A query that passes the checks is answered. -/
theorem exists_execute_iff (hschema : s.schema project = .ok schema) (q : Query) (rowCap : Nat) :
    (∃ rows, execute q schema s.fetch rowCap = .ok rows) ↔
      ∃ p, Plan.ofQuery q schema = .ok p := by
  constructor
  · rintro ⟨rows, hrows⟩
    obtain ⟨p, -, hp, -⟩ := execute_eq_ok_iff.mp hrows
    exact ⟨p, hp⟩
  · rintro ⟨p, hp⟩
    have haccepts : Plan.Accepts q schema p := Plan.ofQuery_eq_ok_iff.mp hp
    have hfetch : ∀ t ∈ p.tables, ∃ documents,
        s.fetch t (p.predicatesFor t.name) rowCap = .ok documents :=
      fun t ht => MemoryStore.exists_fetch hschema (haccepts.mem_schema ht) _ _
    obtain ⟨fetched, hfetched⟩ := Plan.exists_fetchTables hfetch
    exact ⟨_, execute_eq_ok_iff.mpr ⟨p, fetched, hp, hfetched, rfl⟩⟩

/-- A query that is not answered is refused. -/
theorem isRefusal_of_execute (hschema : s.schema project = .ok schema) {q : Query} {rowCap : Nat}
    {e : QueryError} (h : execute q schema s.fetch rowCap = .error e) : e.IsRefusal := by
  cases hp : Plan.ofQuery q schema with
  | error e' =>
    simp only [execute, hp, bind, Except.bind] at h
    obtain rfl := Except.error.inj h
    exact Plan.isRefusal_of_ofQuery hp
  | ok p =>
    obtain ⟨rows, hrows⟩ := (exists_execute_iff hschema q rowCap).mpr ⟨p, hp⟩
    rw [hrows] at h
    cases h

end Execute

/-- The schema of a project cannot be had exactly if the text is a statement and the project is not
known. -/
theorem MemoryStore.answer_eq_catalog_iff (s : MemoryStore) (rowCap : Nat) (project sql : String) :
    (∃ cause, s.source.answer rowCap project sql = .error (.catalog cause)) ↔
      (Query.ofText sql).isValid = true ∧ project ∉ s.projects.keys := by
  rw [← schema_eq_error_iff]
  simp only [RowSource.answer, source, bind, Except.bind, pure, Except.pure, throw, throwThe,
    MonadExceptOf.throw]
  cases (Query.ofText sql).isValid with
  | false => simp
  | true =>
    cases hschema : s.schema project with
    | error cause => simp
    | ok schema =>
      cases hrows : execute (.ofText sql) schema s.fetch rowCap with
      | ok rows => simp [hrows]
      | error e =>
        have hrefusal : e.IsRefusal := isRefusal_of_execute hschema hrows
        have hne : ∀ cause, e ≠ .catalog cause := by
          rintro cause rfl
          exact hrefusal
        simpa [hrows] using hne

/-- **Exactly the supported queries are answered.** On a project of a store that comes about, a
statement is answered if and only if it is supported, whatever the number of rows to be fetched; one
that is not answered is refused, never for a fault of the store; and the schema of a project cannot
be had exactly if the text is a statement and the project is not known. -/
theorem execute_supported {s : MemoryStore} (hs : s.Reachable) {project : String}
    {schema : ProjectSchema} (hschema : s.schema project = .ok schema) (rowCap : Nat)
    (ts : List Sql.Token) :
    ((∃ rows, execute (.ofTokens ts) schema s.fetch rowCap = .ok rows) ↔
        (Query.ofTokens ts).IsSupported schema) ∧
      (∀ e, execute (.ofTokens ts) schema s.fetch rowCap = .error e → e.IsRefusal) ∧
      ∀ other sql, (∃ cause, s.source.answer rowCap other sql = .error (.catalog cause)) ↔
        (Query.ofText sql).isValid = true ∧ other ∉ s.projects.keys := by
  have hunique : schema.HasDistinctNames := hs.wellFormed.hasDistinctNames hschema
  have hnonempty := @Query.tables_ne_nil ts
  refine ⟨?_, fun e => isRefusal_of_execute hschema, s.answer_eq_catalog_iff rowCap⟩
  rw [exists_execute_iff hschema, Plan.exists_ofQuery_iff hunique hnonempty]

namespace Sample

/-- A statement that is supported, and one that is not for its OR. -/
def penOrders : List Sql.Token :=
  Sql.tokenize
    "SELECT u.name FROM users u JOIN orders o ON o.user_id = u.id WHERE o.name = 'pen' AND id < 9"

def penOrEarly : List Sql.Token :=
  Sql.tokenize "SELECT user_id FROM orders o WHERE o.name = 'pen' OR id < 8"

theorem execute_supported_penOrders :
    shop.Reachable ∧ shop.schema "shop" = .ok schema ∧
      execute (.ofTokens penOrders) schema shop.fetch 2 =
        .ok [.ofList [("u.name", .text "Ann")]] ∧
      (Query.ofTokens penOrders).IsSupported schema ∧
      execute (.ofTokens penOrEarly) schema shop.fetch 2 =
        .error (.unsupported .orCondition) ∧
      ¬ (Query.ofTokens penOrEarly).IsSupported schema ∧
      "mart" ∉ shop.projects.keys ∧
      ∃ cause, shop.source.answer 2 "mart" "SELECT id FROM users" = .error (.catalog cause) := by
  have hpens : execute (.ofTokens penOrders) schema shop.fetch 2 =
      .ok [.ofList [("u.name", .text "Ann")]] := by decide +kernel
  have hor : execute (.ofTokens penOrEarly) schema shop.fetch 2 =
      .error (.unsupported .orCondition) := by decide +kernel
  have hmart : (Query.ofText "SELECT id FROM users").isValid = true ∧
      "mart" ∉ shop.projects.keys := by decide +kernel
  have hsupported := execute_supported shop_reachable shop_schema 2
  refine ⟨shop_reachable, shop_schema, hpens, (hsupported penOrders).1.mp ⟨_, hpens⟩, hor, ?_,
    hmart.2, ((hsupported penOrders).2.2 _ _).mpr hmart⟩
  intro h
  obtain ⟨rows, hrows⟩ := (hsupported penOrEarly).1.mpr h
  rw [hor] at hrows
  cases hrows

end Sample
end DocumentSql
