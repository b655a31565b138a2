/-
# A store is what its history left

Loading a fixture is a history of its own, in which each table is created and
filled (`Fixture.steps`), and none of its insertions fails
(`Fixture.exists_load`). It leaves the last definition of every table of a
project (`Fixture.lastTables_steps`).

A `MemoryStore` starts from a fixture, which may be empty, and goes on with
tables being created and rows being inserted. What its tables are called, what
an insertion needs and does, and what is fetched can be told from its history at
any time (`MemoryStore.isLeftBy_history`).

Key definitions: `Fixture.steps`, `Fixture.lastDefinitions`,
`MemoryStore.IsLeftBy`.
Key theorems: `Fixture.exists_load`, `Fixture.lastTables_steps`,
`MemoryStore.isLeftBy_history`.
-/
import DocumentSql.Proofs.Store.History

namespace DocumentSql

/-! ### Loading a fixture -/

namespace Fixture

/-- The steps that make a table. -/
def Table.steps (project : String) (t : Table) : List StoreStep :=
  .create project t.name t.allColumns :: t.rows.map (.insert project t.name)

/-- The steps that make the tables of a fixture. -/
def steps (projects : List Project) : List StoreStep :=
  projects.flatMap fun p => p.tables.flatMap (·.steps p.id)

/-- Rows can be put into a table that is there. -/
theorem insertRows_eq {project table : String} : ∀ (rows : List Row) {s : MemoryStore},
    s.HasTable project table → insertRows project table s rows =
      .ok ((rows.map (.insert project table)).foldl MemoryStore.apply s)
  | [], _, _ => rfl
  | row :: rows, s, h => by
    obtain ⟨s', id, hr⟩ := h.exists_insertRow row
    have happly : s.apply (.insert project table row) = s' := by rw [MemoryStore.apply, hr]
    have hrest := insertRows_eq rows (h.apply (.insert project table row))
    rw [happly] at hrest
    rw [insertRows, hr, List.map_cons, List.foldl_cons, happly]
    exact hrest

theorem loadTable_eq (project : String) (s : MemoryStore) (t : Table) :
    loadTable project s t = .ok ((t.steps project).foldl MemoryStore.apply s) :=
  insertRows_eq t.rows (MemoryStore.hasTable_createTable s project t.name t.allColumns)

theorem loadTables_eq (project : String) : ∀ (tables : List Table) (s : MemoryStore),
    tables.foldlM (loadTable project) s =
      .ok ((tables.flatMap (·.steps project)).foldl MemoryStore.apply s)
  | [], _ => rfl
  | t :: tables, s => by
    rw [List.foldlM_cons, loadTable_eq, List.flatMap_cons, List.foldl_append]
    exact loadTables_eq project tables _

/-- Loading goes on with every store, and with its history. -/
theorem exists_load : ∀ (projects : List Project) {s : MemoryStore} {added : List String}
    {history : List StoreStep}, s.Records added history →
    ∃ s', projects.foldlM loadProject s = .ok s' ∧
      s'.Records (added ++ projects.map (·.id)) (history ++ steps projects)
  | [], s, added, history, h => by
    refine ⟨s, rfl, ?_⟩
    rwa [List.map_nil, List.append_nil, steps, List.flatMap_nil, List.append_nil]
  | p :: projects, s, added, history, h => by
    have hproject : loadProject s p =
        .ok ((p.tables.flatMap (·.steps p.id)).foldl MemoryStore.apply (s.addProject p.id)) :=
      loadTables_eq p.id p.tables (s.addProject p.id)
    obtain ⟨s', hload, hrecords⟩ := exists_load projects
      ((h.addProject p.id).run (p.tables.flatMap (·.steps p.id)))
    refine ⟨s', ?_, ?_⟩
    · rw [List.foldlM_cons, hproject]
      exact hload
    · rwa [List.append_assoc, List.append_assoc] at hrecords

/-- The tables of a list, each where its name is defined last. -/
def lastDefinitions : List Table → List Table
  | [] => []
  | t :: later =>
    if later.any (·.name == t.name) then lastDefinitions later else t :: lastDefinitions later

theorem lastDefinitions_concat (t : Table) : ∀ tables : List Table,
    lastDefinitions (tables ++ [t]) = (lastDefinitions tables).filter (·.name != t.name) ++ [t]
  | [] => rfl
  | u :: tables => by
    have hany : (tables ++ [t]).any (·.name == u.name) =
        (tables.any (·.name == u.name) || t.name == u.name) := by simp
    rw [List.cons_append, lastDefinitions, lastDefinitions, lastDefinitions_concat t tables, hany]
    by_cases hlater : tables.any (·.name == u.name) = true
    · rw [hlater, Bool.true_or, if_pos rfl, if_pos rfl]
    · by_cases hname : t.name = u.name
      · simp [hlater, hname]
      · simp [hlater, hname, Ne.symm hname]

/-- A table with all its columns listed. -/
def Table.complete (t : Table) : Table := ⟨t.name, t.allColumns, t.rows⟩

/-- The steps that make a table leave it behind the others, in place of one of the same name. -/
theorem lastTables_append_steps (project own : String) (t : Table) (history : List StoreStep) :
    lastTables project (history ++ t.steps own) =
      if own = project then
        (lastTables project history).filter (·.name != t.name) ++ [t.complete]
      else lastTables project history := by
  have hrows : ∀ rows : List Row, lastTables project
      (history ++ .create own t.name t.allColumns :: rows.map (.insert own t.name)) =
        if own = project then
          (lastTables project history).filter (·.name != t.name) ++ [⟨t.name, t.allColumns, rows⟩]
        else lastTables project history := by
    intro rows
    induction rows using List.reverseRecOn with
    | nil => exact lastTables_concat_create project history own t.name t.allColumns
    | append_singleton rows row ih =>
      rw [List.map_append, List.map_singleton, ← List.cons_append, ← List.append_assoc,
        lastTables_concat_insert, ih]
      split
      · have hother : ∀ u ∈ (lastTables project history).filter (·.name != t.name),
            ¬ u.name = t.name := by
          intro u hu
          simpa using (List.mem_filter.mp hu).2
        have hsame : ((lastTables project history).filter (·.name != t.name)).map
            (·.withRow t.name row) = (lastTables project history).filter (·.name != t.name) :=
          map_ite_of_forall_not _ hother
        rw [List.map_append, hsame, List.map_singleton, Table.withRow, if_pos rfl]
      · rfl
  exact hrows t.rows

/-- The tables of a fixture, each with its project. -/
def entries (projects : List Project) : List (String × Table) :=
  projects.flatMap fun p => p.tables.map fun t => (p.id, t)

theorem steps_eq_flatMap_entries (projects : List Project) :
    steps projects = (entries projects).flatMap fun e => e.2.steps e.1 := by
  simp [steps, entries, List.flatMap_assoc, List.flatMap_map]

theorem entries_of_project (project : String) : ∀ projects : List Project,
    ((entries projects).filter (·.1 == project)).map Prod.snd =
      (projects.filter (·.id == project)).flatMap (·.tables)
  | [] => rfl
  | p :: projects => by
    have ih := entries_of_project project projects
    rw [entries] at ih ⊢
    rw [List.flatMap_cons, List.filter_append, List.map_append, ih, List.filter_cons]
    by_cases hown : p.id = project
    · simp [hown, List.filter_map, Function.comp_def]
    · simp [hown, List.filter_map, Function.comp_def]

/-- What a fixture leaves: the last definitions of the tables of a project, over all its entries. -/
theorem lastTables_steps (project : String) (projects : List Project) :
    lastTables project (steps projects) =
      (lastDefinitions ((projects.filter (·.id == project)).flatMap (·.tables))).map
        Table.complete := by
  rw [steps_eq_flatMap_entries, ← entries_of_project]
  induction entries projects using List.reverseRecOn with
  | nil => rfl
  | append_singleton es e ih =>
    rw [List.flatMap_append, List.flatMap_singleton, lastTables_append_steps, ih,
      List.filter_append, List.map_append]
    by_cases hown : e.1 = project
    · have hnames : (fun t : Table => t.name != e.2.name) ∘ Table.complete =
          fun t => t.name != e.2.name := rfl
      simp [hown, lastDefinitions_concat, List.filter_map, hnames]
    · simp [hown]

end Fixture

/-! ### Stores and their histories -/

namespace MemoryStore

/-- What is known of a store that came up with some projects, and then by a history. -/
structure IsLeftBy (s : MemoryStore) (added : List String) (history : List StoreStep) : Prop where
  names_nodup : ∀ project, ((s.tablesOf project).map (·.schema.name)).Nodup
  id_eq : ∀ project, ∀ t ∈ s.tablesOf project, t.schema.id = project ++ ":" ++ t.schema.name
  documentId_eq : ∀ project, ∀ t ∈ s.tablesOf project, ∀ (k : Nat) (d : Document),
    t.documents[k]? = some d → d.id = t.schema.name ++ "-" ++ Decimal.natText (k + 1)
  /-- A project is known if the fixture has it or a table of it was created. -/
  mem_keys_iff : ∀ project, project ∈ s.projects.keys ↔
    project ∈ added ∨ ∃ name columns, .create project name columns ∈ history
  tablesOf_eq : ∀ project,
    s.tablesOf project = (lastTables project history).map (·.stored project)
  /-- Creating a table moves it to the end of its project, without rows. -/
  tablesOf_create : ∀ project name columns other,
    (s.createTable project name columns).tablesOf other =
      if project = other then
        (s.tablesOf other).filter (·.schema.name != name) ++
          [⟨⟨project ++ ":" ++ name, name, columns⟩, []⟩]
      else s.tablesOf other
  /-- A row comes to the end of its table, and nothing else changes. -/
  tablesOf_insert : ∀ project name row s' id, s.insertRow project name row = .ok (s', id) →
    s.apply (.insert project name row) = s' ∧ ∀ other, s'.tablesOf other =
      if project = other then
        (s.tablesOf other).map fun t =>
          if t.schema.name = name then ⟨t.schema, t.documents ++ [⟨id, row⟩]⟩ else t
      else s.tablesOf other
  insert_eq_error_iff : ∀ project name row e, s.insertRow project name row = .error e ↔
    project ∉ s.projects.keys ∧ e = .projectNotFound project ∨
      project ∈ s.projects.keys ∧ name ∉ (s.tablesOf project).map (·.schema.name) ∧
        e = .tableMissing name
  apply_of_error : ∀ project name row e, s.insertRow project name row = .error e →
    s.apply (.insert project name row) = s
  /-- What is fetched of a table are the first rows that satisfy the conditions, of those inserted
  since its last creation. -/
  fetch_eq : s.HasColonFreeIds → ∀ project schema, s.schema project = .ok schema →
    ∀ t ∈ schema.tables, ∃ before later,
      history = before ++ .create project t.name t.columns :: later ∧
        isCreated project t.name later = false ∧
        ∀ (predicates : List Predicate) (limit : Nat), s.fetch t predicates limit = .ok
          (((numbered t.name (rowsInto project t.name later)).filter
            (holdsAll predicates)).take limit)

namespace Records

variable {s : MemoryStore} {added : List String} {history : List StoreStep}

theorem documentId_eq (h : s.Records added history) {project : String} {t : MemoryTable}
    (ht : t ∈ s.tablesOf project) {k : Nat} {d : Document} (hd : t.documents[k]? = some d) :
    d.id = t.schema.name ++ "-" ++ Decimal.natText (k + 1) := by
  rw [h.tablesOf_eq] at ht
  obtain ⟨u, -, rfl⟩ := List.mem_map.mp ht
  rw [Fixture.Table.stored, numbered, List.getElem?_mapIdx] at hd
  obtain ⟨row, -, rfl⟩ := Option.map_eq_some_iff.mp hd
  rfl

theorem documentsOf_eq (h : s.Records added history) {project : String} {t : Fixture.Table}
    (ht : t ∈ lastTables project history) :
    s.documentsOf project t.name = numbered t.name t.rows := by
  have hmem : t.stored project ∈ s.tablesOf project := by
    rw [h.tablesOf_eq]
    exact List.mem_map_of_mem ht
  have hfind : (s.tablesOf project).find? (·.schema.name == t.name) = some (t.stored project) := by
    refine find?_of_unique hmem (beq_self_eq_true t.name) fun u hu hname => ?_
    exact h.wellFormed.eq_of_name hu hmem (beq_iff_eq.mp hname)
  rw [documentsOf, hfind]
  rfl

theorem fetch_eq (h : s.Records added history) (hids : s.HasColonFreeIds) {project : String}
    {schema : ProjectSchema} (hschema : s.schema project = .ok schema) {t : TableSchema}
    (ht : t ∈ schema.tables) : ∃ before later,
      history = before ++ .create project t.name t.columns :: later ∧
        isCreated project t.name later = false ∧
        ∀ (predicates : List Predicate) (limit : Nat), s.fetch t predicates limit = .ok
          (((numbered t.name (rowsInto project t.name later)).filter
            (holdsAll predicates)).take limit) := by
  have hmem := ht
  rw [tables_of_schema hschema, h.tablesOf_eq, List.map_map] at hmem
  obtain ⟨u, hu, rfl⟩ := List.mem_map.mp hmem
  obtain ⟨before, later, hhistory, hlast, hrows⟩ := exists_of_mem_lastTables hu
  have hdocuments : s.documentsOf project u.name =
      numbered u.name (rowsInto project u.name later) := by
    rw [h.documentsOf_eq hu, hrows]
  refine ⟨before, later, hhistory, hlast, fun predicates limit => ?_⟩
  rw [h.wellFormed.fetch_eq (h.wellFormed.ownsIds hids project) hschema ht]
  exact congrArg (fun documents => Except.ok ((documents.filter (holdsAll predicates)).take limit))
    hdocuments

theorem isLeftBy (h : s.Records added history) : s.IsLeftBy added history where
  names_nodup := h.wellFormed.names_nodup
  id_eq := h.wellFormed.id_eq
  documentId_eq _ _ ht _ _ hd := h.documentId_eq ht hd
  mem_keys_iff := h.mem_keys_iff
  tablesOf_eq := h.tablesOf_eq
  tablesOf_create project name columns other := by
    rw [createTable, tablesOf_insert]
    split
    · rename_i hown
      rw [hown]
      rfl
    · rfl
  tablesOf_insert project name row s' id hr := by
    obtain ⟨htables, hid⟩ := h.wellFormed.tablesOf_insertRow hr
    refine ⟨by rw [MemoryStore.apply, hr], fun other => ?_⟩
    rw [htables]
    split
    · rename_i hown
      subst hown
      refine List.map_congr_left fun t ht => ?_
      by_cases hname : t.schema.name = name
      · rw [if_pos hname, if_pos hname, hid t ht hname]
        rfl
      · rw [if_neg hname, if_neg hname]
    · rfl
  insert_eq_error_iff _ _ _ _ := insertRow_eq_error_iff
  apply_of_error project name row e hr := by rw [MemoryStore.apply, hr]
  fetch_eq hids _ _ hschema _ ht := h.fetch_eq hids hschema ht

end Records

/-- A fixture that can be read is loaded, with the last definition of every table, and whatever is
done then leaves what the history of the fixture and of the steps leaves. The fixture without
projects is the empty store. -/
theorem isLeftBy_history (projects : List Fixture.Project) :
    ∃ s₀, Fixture.load projects = .ok s₀ ∧
      (∀ v, Fixture.projects? v = some projects → ofJson v = .ok s₀) ∧
      (∀ project, s₀.tablesOf project =
        (Fixture.lastDefinitions ((projects.filter (·.id == project)).flatMap (·.tables))).map
          fun t => t.complete.stored project) ∧
      ∀ steps : List StoreStep, (steps.foldl apply s₀).IsLeftBy (projects.map (·.id))
        (Fixture.steps projects ++ steps) := by
  obtain ⟨s₀, hload, hrecords⟩ := Fixture.exists_load projects records_empty
  rw [List.nil_append, List.nil_append] at hrecords
  refine ⟨s₀, hload, fun v hv => ?_, fun project => ?_, fun steps => ?_⟩
  · rw [ofJson, hv]
    exact hload
  · rw [hrecords.tablesOf_eq, Fixture.lastTables_steps, List.map_map]
    rfl
  · exact (hrecords.run steps).isLeftBy

/-- Of a table that a project defines twice the second definition stays, behind the other tables. -/
example : (Fixture.load [⟨"shop", [⟨"users", ["id"], [.ofList [("id", .int 1)]]⟩,
      ⟨"orders", ["id"], []⟩, ⟨"users", [], [.ofList [("name", .text "Ann")]]⟩]⟩]).toOption.map
        (·.tablesOf "shop") =
    some [⟨⟨"shop:orders", "orders", ["id"]⟩, []⟩,
      ⟨⟨"shop:users", "users", ["name"]⟩, [⟨"users-1", .ofList [("name", .text "Ann")]⟩]⟩] := by
  decide +kernel

end MemoryStore
end DocumentSql
