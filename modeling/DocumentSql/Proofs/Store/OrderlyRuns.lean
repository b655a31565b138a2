/-
# Runs on both stores

A run is orderly if it inserts rows only into tables that are there, and never
creates a table again behind a row of it (`IsOrderly`). It leaves a
`MemoryStore` and a `SerializedStore` with the same schemas
(`SerializedStore.schema_run`), and each table with the rows that were inserted
into it, in order (`MemoryStore.documentsOf_run`, `SerializedStore.rowsOf_run`).
That project names have no colon keeps the identifiers of tables apart.

Key definitions: `IsOrderly`, `rowsInto`, `SerializedStore.apply`,
`SerializedStore.run`.
Key theorems: `MemoryStore.documentsOf_run`, `SerializedStore.rowsOf_run`,
`SerializedStore.schema_run`.
-/
import DocumentSql.Proofs.Store.Steps
import DocumentSql.Store.Serialized

namespace DocumentSql

/-! ### Orderly runs -/

/-- The row that a step inserts into a table. -/
def StoreStep.rowInto? (project table : String) : StoreStep → Option Row
  | .create .. => none
  | .insert own name row => if own = project ∧ name = table then some row else none

/-- The rows that are inserted into a table, in order. -/
def rowsInto (project table : String) (steps : List StoreStep) : List Row :=
  steps.filterMap (·.rowInto? project table)

theorem rowsInto_concat (project table : String) (steps : List StoreStep) (step : StoreStep) :
    rowsInto project table (steps ++ [step]) =
      rowsInto project table steps ++ (step.rowInto? project table).toList := by
  rw [rowsInto, List.filterMap_append, ← rowsInto]
  cases h : step.rowInto? project table <;> simp [h]

theorem mem_steps_of_mem_rowsInto {project table : String} {steps : List StoreStep} {row : Row}
    (h : row ∈ rowsInto project table steps) : .insert project table row ∈ steps := by
  obtain ⟨step, hstep, hrow⟩ := List.mem_filterMap.mp h
  cases step with
  | create => cases hrow
  | insert own name inserted =>
    simp only [StoreStep.rowInto?, Option.ite_none_right_eq_some, Option.some.injEq] at hrow
    obtain ⟨⟨rfl, rfl⟩, rfl⟩ := hrow
    exact hstep

/-- Project names have no colon, rows go only to tables that have been created, and no table is
created again behind a row of it. -/
inductive IsOrderly : List StoreStep → Prop
  | nil : IsOrderly []
  | create {steps : List StoreStep} (h : IsOrderly steps) (project table : String)
      (columns : List String) (colonFree : ':' ∉ project.toList)
      (rowless : rowsInto project table steps = []) :
      IsOrderly (steps ++ [.create project table columns])
  | insert {steps : List StoreStep} (h : IsOrderly steps) (project table : String) (row : Row)
      (created : ∃ columns, .create project table columns ∈ steps) :
      IsOrderly (steps ++ [.insert project table row])

theorem IsOrderly.colonFree {steps : List StoreStep} (h : IsOrderly steps) :
    ∀ step ∈ steps, ':' ∉ step.project.toList := by
  induction h with
  | nil => exact fun step hs => by cases hs
  | create h project table columns colonFree rowless ih =>
    intro step hs
    rcases List.mem_append.mp hs with hold | hnew
    · exact ih step hold
    · exact List.mem_singleton.mp hnew ▸ colonFree
  | insert h project table row created ih =>
    intro step hs
    obtain ⟨columns, hcreated⟩ := created
    have hproject := ih _ hcreated
    rcases List.mem_append.mp hs with hold | hnew
    · exact ih step hold
    · rw [List.mem_singleton.mp hnew]
      exact hproject

/-! ### In memory -/

namespace MemoryStore

theorem schemas_createTable (s : MemoryStore) (own table : String) (columns : List String)
    (project : String) :
    ((s.createTable own table columns).tablesOf project).map (·.schema) =
      if own = project then
        ((s.tablesOf project).map (·.schema)).filter (·.name != table) ++
          [⟨tableId project table, table, columns⟩]
      else (s.tablesOf project).map (·.schema) := by
  rw [createTable, tablesOf_insert]
  split
  · rename_i hown
    subst hown
    rw [List.map_append, List.filter_map]
    rfl
  · rfl

/-- Adding a row changes no schema of any project. -/
theorem schemas_insertRow {s s' : MemoryStore} {own table id : String} {row : Row}
    (h : s.insertRow own table row = .ok (s', id)) (project : String) :
    (s'.tablesOf project).map (·.schema) = (s.tablesOf project).map (·.schema) := by
  obtain ⟨tables, hadd, -, rfl⟩ := insertRow_eq_ok h
  rw [tablesOf_insert]
  split
  · rename_i hown
    rw [schemas_addRowTo hadd, hown]
  · rfl

/-- The project has a table of that name. -/
def HasTable (s : MemoryStore) (project table : String) : Prop :=
  ∃ t ∈ (s.tablesOf project).map (·.schema), t.name = table

theorem hasTable_createTable (s : MemoryStore) (project table : String) (columns : List String) :
    (s.createTable project table columns).HasTable project table := by
  refine ⟨⟨tableId project table, table, columns⟩, ?_, rfl⟩
  rw [schemas_createTable, if_pos rfl]
  exact List.mem_append_right _ List.mem_cons_self

/-- No step takes a table away. -/
theorem HasTable.apply {s : MemoryStore} {project table : String} (h : s.HasTable project table) :
    ∀ step : StoreStep, (s.apply step).HasTable project table
  | .create own name columns => by
    obtain ⟨t, ht, hname⟩ := h
    by_cases hnew : own = project ∧ name = table
    · obtain ⟨rfl, rfl⟩ := hnew
      exact hasTable_createTable s own name columns
    · refine ⟨t, ?_, hname⟩
      rw [MemoryStore.apply, schemas_createTable]
      split
      · rename_i hown
        have hother : table ≠ name := fun he => hnew ⟨hown, he.symm⟩
        exact List.mem_append_left _ (List.mem_filter.mpr ⟨ht, by simp [hname, hother]⟩)
      · exact ht
  | .insert own name row => by
    cases hr : s.insertRow own name row with
    | error e => simpa only [MemoryStore.apply, hr] using h
    | ok after => simpa only [MemoryStore.apply, hr, HasTable, schemas_insertRow hr] using h

/-- A table that was created is there. -/
theorem hasTable_run {steps : List StoreStep} {project table : String} {columns : List String}
    (h : .create project table columns ∈ steps) : (run steps).HasTable project table := by
  induction steps using List.reverseRecOn with
  | nil => cases h
  | append_singleton steps step ih =>
    rw [run_concat]
    rcases List.mem_append.mp h with hold | hnew
    · exact (ih hold).apply step
    · rw [← List.mem_singleton.mp hnew]
      exact hasTable_createTable (run steps) project table columns

/-- A row can be inserted into a table that is there. -/
theorem HasTable.exists_insertRow {s : MemoryStore} {project table : String}
    (h : s.HasTable project table) (row : Row) :
    ∃ s' id, s.insertRow project table row = .ok (s', id) := by
  have hname : table ∈ (s.tablesOf project).map (·.schema.name) := by
    obtain ⟨t, ht, hname⟩ := h
    obtain ⟨u, hu, rfl⟩ := List.mem_map.mp ht
    exact List.mem_map.mpr ⟨u, hu, hname⟩
  cases hr : s.insertRow project table row with
  | error e => exact absurd hname (notMem_names_of_insertRow_error hr)
  | ok after => exact ⟨after.1, after.2, rfl⟩

/-- The documents of a table hold the rows that were inserted into it. -/
theorem documentsOf_run {steps : List StoreStep} (h : IsOrderly steps) (project table : String) :
    ((run steps).documentsOf project table).map (·.data) = rowsInto project table steps := by
  induction h with
  | nil => rfl
  | create h own name columns colonFree rowless ih =>
    rw [run_concat, rowsInto_concat, apply, documentsOf_createTable]
    split
    · rename_i hown
      obtain ⟨rfl, rfl⟩ := hown
      rw [rowless]
      rfl
    · rw [ih, StoreStep.rowInto?, Option.toList_none, List.append_nil]
  | insert h own name row created ih =>
    obtain ⟨columns, hcreated⟩ := created
    obtain ⟨s', id, hr⟩ := (hasTable_run hcreated).exists_insertRow row
    rw [run_concat, rowsInto_concat]
    simp only [apply, hr, documentsOf_insertRow hr, StoreStep.rowInto?]
    split
    · rw [List.map_append, ih]
      rfl
    · rw [ih, Option.toList_none, List.append_nil]

/-- The projects of a run are those of its steps, and none is without tables. -/
theorem exists_of_get?_run {steps : List StoreStep} {project : String} {tables : List MemoryTable}
    (h : (run steps).projects.get? project = some tables) :
    (∃ step ∈ steps, step.project = project) ∧ tables ≠ [] := by
  induction steps using List.reverseRecOn generalizing tables with
  | nil => cases h
  | append_singleton steps step ih =>
    rw [run_concat, get?_apply] at h
    split at h
    · rename_i hown
      refine ⟨⟨step, by simp, hown⟩, ?_⟩
      cases step with
      | create own name columns =>
        obtain rfl := Option.some.inj h
        simp
      | insert own name row =>
        obtain ⟨before, hbefore, rfl⟩ := Option.map_eq_some_iff.mp h
        have hne := (ih hbefore).2
        cases hadd : MemoryTable.addRowTo name row before with
        | none => exact hne
        | some after =>
          have hschemas := schemas_addRowTo hadd
          intro hnil
          have hafter : after.1 = [] := hnil
          rw [hafter] at hschemas
          exact hne (List.map_eq_nil_iff.mp hschemas.symm)
    · obtain ⟨⟨own, hmem, hown⟩, hne⟩ := ih h
      exact ⟨⟨own, List.mem_append_left _ hmem, hown⟩, hne⟩

theorem hasColonFreeIds_run {steps : List StoreStep}
    (h : ∀ step ∈ steps, ':' ∉ step.project.toList) : (run steps).HasColonFreeIds := by
  intro project hmem
  cases hg : (run steps).projects.get? project with
  | none => exact absurd hmem ((OrderedMap.get?_eq_none_iff _ _).mp hg)
  | some tables =>
    obtain ⟨⟨step, hstep, rfl⟩, -⟩ := exists_of_get?_run hg
    exact h step hstep

end MemoryStore

namespace SerializedStore

/-! ### As text -/

/-- The store after a step. A row is stored under the identifier of its table. -/
def apply (s : SerializedStore) : StoreStep → SerializedStore
  | .create project table columns => (s.createTable project table columns).1
  | .insert project table row => (s.insertRow (tableId project table) row).1

/-- The store after a run. -/
def run (steps : List StoreStep) : SerializedStore := steps.foldl apply .empty

theorem run_concat (steps : List StoreStep) (step : StoreStep) :
    run (steps ++ [step]) = (run steps).apply step := by
  rw [run, List.foldl_append, List.foldl_cons, List.foldl_nil, ← run]

theorem rowsOf_insertRow (s : SerializedStore) (own id : String) (row : Row) :
    ((s.insertRow own row).1.rowsOf id).map (·.row) =
      (s.rowsOf id).map (·.row) ++ if own = id then [row] else [] := by
  rw [insertRow, rowsOf, List.filter_append, List.map_append, ← rowsOf]
  by_cases h : own = id <;> simp [h]

/-- The rows stored for a table are those that were inserted into it. -/
theorem rowsOf_run {steps : List StoreStep} (h : ∀ step ∈ steps, ':' ∉ step.project.toList)
    {project : String} (hproject : ':' ∉ project.toList) (table : String) :
    ((run steps).rowsOf (tableId project table)).map (·.row) = rowsInto project table steps := by
  induction steps using List.reverseRecOn with
  | nil => rfl
  | append_singleton steps step ih =>
    have ih := ih fun s hs => h s (List.mem_append_left _ hs)
    rw [run_concat, rowsInto_concat]
    cases step with
    | create own name columns =>
      rw [StoreStep.rowInto?, Option.toList_none, List.append_nil, ← ih]
      rfl
    | insert own name row =>
      have hown : ':' ∉ own.toList := h (.insert own name row) (by simp)
      have hid : tableId own name = tableId project table ↔ own = project ∧ name = table :=
        ⟨tableId_inj hown hproject, fun ⟨hp, ht⟩ => by rw [hp, ht]⟩
      rw [apply, rowsOf_insertRow, ih, StoreStep.rowInto?]
      simp only [hid]
      split <;> rfl

/-- The schemas of the tables registered for a project. -/
def schemasOf (s : SerializedStore) (project : String) : List TableSchema :=
  (s.tables.filter (·.project == project)).map (·.schema)

/-- Identifiers of registered tables are made up of a project without a colon and a name. -/
def HasPlainIds (s : SerializedStore) : Prop :=
  ∀ r ∈ s.tables, ':' ∉ r.project.toList ∧ r.schema.id = tableId r.project r.schema.name

theorem HasPlainIds.createTable {s : SerializedStore} (h : s.HasPlainIds) {own : String}
    (hown : ':' ∉ own.toList) (table : String) (columns : List String) :
    (s.createTable own table columns).1.HasPlainIds := by
  intro r hr
  rcases List.mem_append.mp hr with hold | hnew
  · exact h r (List.mem_filter.mp hold).1
  · rw [List.mem_singleton.mp hnew]
    exact ⟨hown, rfl⟩

theorem hasPlainIds_run {steps : List StoreStep} (h : ∀ step ∈ steps, ':' ∉ step.project.toList) :
    (run steps).HasPlainIds := by
  induction steps using List.reverseRecOn with
  | nil => exact fun r hr => by cases hr
  | append_singleton steps step ih =>
    have ih := ih fun s hs => h s (List.mem_append_left _ hs)
    have hown := h step (by simp)
    rw [run_concat]
    cases step with
    | create own table columns => exact ih.createTable hown table columns
    | insert => exact ih

/-- Registering a table moves its schema behind those of the project, and leaves other projects as
they are. -/
theorem schemasOf_createTable {s : SerializedStore} (h : s.HasPlainIds) {own : String}
    (hown : ':' ∉ own.toList) (table : String) (columns : List String) (project : String) :
    (s.createTable own table columns).1.schemasOf project =
      if own = project then
        (s.schemasOf project).filter (·.name != table) ++ [⟨tableId project table, table, columns⟩]
      else s.schemasOf project := by
  have hid : ∀ r ∈ s.tables,
      (r.schema.id != tableId own table) = !(r.project == own && r.schema.name == table) := by
    intro r hr
    obtain ⟨hcolon, hr⟩ := h r hr
    rw [hr, bne]
    congr 1
    rw [Bool.eq_iff_iff]
    simp only [beq_iff_eq, Bool.and_eq_true]
    exact ⟨tableId_inj hcolon hown, fun ⟨hp, ht⟩ => by rw [hp, ht]⟩
  rw [createTable, schemasOf, schemasOf, List.filter_append, List.map_append,
    List.filter_congr hid, List.filter_filter]
  by_cases hp : own = project
  · subst hp
    have hrest : ∀ r : Registration,
        (r.project == own && !(r.project == own && r.schema.name == table)) =
          (r.schema.name != table && r.project == own) := by
      intro r
      cases r.project == own <;> simp [bne]
    simp only [hrest]
    rw [← List.filter_filter, List.filter_map]
    simp [Function.comp_def]
  · have hrest : ∀ r : Registration,
        (r.project == project && !(r.project == own && r.schema.name == table)) =
          (r.project == project) := by
      intro r
      by_cases hr : r.project = project <;> simp [hr, Ne.symm hp]
    simp only [hrest]
    simp [hp]

/-- Both stores list the same schemas for a project. -/
theorem schemasOf_run {steps : List StoreStep} (h : ∀ step ∈ steps, ':' ∉ step.project.toList)
    (project : String) :
    (run steps).schemasOf project =
      ((MemoryStore.run steps).tablesOf project).map (·.schema) := by
  induction steps using List.reverseRecOn with
  | nil => rfl
  | append_singleton steps step ih =>
    have hbefore : ∀ s ∈ steps, ':' ∉ s.project.toList := fun s hs =>
      h s (List.mem_append_left _ hs)
    have ih := ih hbefore
    rw [run_concat, MemoryStore.run_concat]
    cases step with
    | create own table columns =>
      have hown : ':' ∉ own.toList := h (.create own table columns) (by simp)
      rw [apply, MemoryStore.apply, schemasOf_createTable (hasPlainIds_run hbefore) hown,
        MemoryStore.schemas_createTable, ih]
    | insert own table row =>
      have hsame : ((run steps).apply (.insert own table row)).schemasOf project =
          (run steps).schemasOf project := rfl
      rw [hsame, ih]
      cases hr : (MemoryStore.run steps).insertRow own table row with
      | error e => simp only [MemoryStore.apply, hr]
      | ok after => simp only [MemoryStore.apply, hr, MemoryStore.schemas_insertRow hr]

/-- Both stores give the same schema of a project, or do not know it. -/
theorem schema_run {steps : List StoreStep} (h : ∀ step ∈ steps, ':' ∉ step.project.toList)
    (project : String) : (run steps).schema project = (MemoryStore.run steps).schema project := by
  have hschemas := schemasOf_run h project
  rw [schemasOf] at hschemas
  rw [schema, hschemas, MemoryStore.schema, MemoryStore.tablesOf]
  cases hg : (MemoryStore.run steps).projects.get? project with
  | none => rfl
  | some tables =>
    cases tables with
    | nil => exact absurd rfl (MemoryStore.exists_of_get?_run hg).2
    | cons t rest => rfl

end SerializedStore
end DocumentSql
