/-
# The stores that a run of operations reaches

A `MemoryStore` starts empty or from a fixture, and goes on with tables being
created and rows being inserted (`MemoryStore.Reachable`). On the way the
identifier of a table stays its project and its name, and no project has two
tables of one name (`MemoryStore.WellFormed`, `Reachable.wellFormed`).

Tables are fetched by identifier, over all projects. As long as project names
have no colon an identifier belongs to one project (`tableId_inj`), so the
table that is found is the one that was meant, and a fetch gives the first of
its documents that satisfy the conditions (`Reachable.fetch_eq`). For a single
project it is enough that no other shares an identifier with it
(`MemoryStore.OwnsIds`, `WellFormed.fetch_eq`).

Key definitions: `MemoryStore.Reachable`, `MemoryStore.WellFormed`,
`MemoryStore.HasColonFreeIds`, `MemoryStore.OwnsIds`, `MemoryStore.documentsOf`.
Key theorems: `MemoryStore.Reachable.wellFormed`, `MemoryStore.Reachable.fetch_eq`.
-/
import DocumentSql.Store.Fixture
import DocumentSql.Proofs.Lists
import DocumentSql.Proofs.OrderedMap
import Mathlib.Data.List.Nodup

namespace DocumentSql

/-- An identifier determines its project and its table. -/
theorem tableId_inj {p p' t t' : String} (h : ':' ∉ p.toList) (h' : ':' ∉ p'.toList)
    (he : tableId p t = tableId p' t') : p = p' ∧ t = t' := by
  have hl : p.toList ++ ':' :: t.toList = p'.toList ++ ':' :: t'.toList := by
    simpa [tableId, String.toList_append] using congrArg String.toList he
  obtain ⟨hp, ht⟩ := append_cons_inj_of_notMem_left h h' hl
  exact ⟨String.toList_inj.mp hp, String.toList_inj.mp ht⟩

namespace MemoryStore

/-- The stores that come about. -/
inductive Reachable : MemoryStore → Prop
  | empty : Reachable .empty
  | loaded {projects : List Fixture.Project} {s : MemoryStore} :
      Fixture.load projects = .ok s → Reachable s
  | created {s : MemoryStore} (project name : String) (columns : List String) :
      Reachable s → Reachable (s.createTable project name columns)
  | inserted {s s' : MemoryStore} {project table id : String} {row : Row} :
      Reachable s → s.insertRow project table row = .ok (s', id) → Reachable s'

/-- What every store that comes about satisfies. -/
structure WellFormed (s : MemoryStore) : Prop where
  id_eq : ∀ project, ∀ t ∈ s.tablesOf project, t.schema.id = tableId project t.schema.name
  names_nodup : ∀ project, ((s.tablesOf project).map (·.schema.name)).Nodup

theorem tablesOf_insert (s : MemoryStore) (project other : String) (tables : List MemoryTable) :
    tablesOf ⟨s.projects.insert project tables⟩ other =
      if project = other then tables else s.tablesOf other := by
  unfold tablesOf
  rw [OrderedMap.get?_insert]
  split <;> rfl

theorem WellFormed.insert {s : MemoryStore} (h : s.WellFormed) {project : String}
    {tables : List MemoryTable} (hid : ∀ t ∈ tables, t.schema.id = tableId project t.schema.name)
    (hn : (tables.map (·.schema.name)).Nodup) :
    WellFormed ⟨s.projects.insert project tables⟩ := by
  constructor
  · intro other t ht
    rw [tablesOf_insert] at ht
    split at ht
    · rename_i he
      exact he ▸ hid t ht
    · exact h.id_eq other t ht
  · intro other
    rw [tablesOf_insert]
    split
    · exact hn
    · exact h.names_nodup other

theorem wellFormed_empty : WellFormed .empty :=
  ⟨fun _ _ ht => (by cases ht), fun _ => List.nodup_nil⟩

theorem WellFormed.addProject {s : MemoryStore} (h : s.WellFormed) (project : String) :
    (s.addProject project).WellFormed := h.insert (h.id_eq project) (h.names_nodup project)

theorem WellFormed.createTable {s : MemoryStore} (h : s.WellFormed) (project name : String)
    (columns : List String) : (s.createTable project name columns).WellFormed := by
  refine h.insert ?_ ?_
  · intro t ht
    rcases List.mem_append.mp ht with ht | ht
    · exact h.id_eq project t (List.mem_filter.mp ht).1
    · rw [List.mem_singleton.mp ht]
  · rw [List.map_append, List.map_singleton, List.nodup_append]
    refine ⟨(h.names_nodup project).sublist (List.filter_sublist.map _), List.nodup_singleton _, ?_⟩
    intro a ha b hb
    obtain ⟨t, ht, rfl⟩ := List.mem_map.mp ha
    rw [List.mem_singleton.mp hb]
    simpa using (List.mem_filter.mp ht).2

/-- Adding a row changes no schema. -/
theorem schemas_addRowTo {name id : String} {row : Row} : ∀ {tables tables' : List MemoryTable},
    MemoryTable.addRowTo name row tables = some (tables', id) →
    tables'.map (·.schema) = tables.map (·.schema)
  | [], _, h => by cases h
  | t :: rest, tables', h => by
    unfold MemoryTable.addRowTo at h
    split at h
    · obtain ⟨rfl, -⟩ := Prod.mk.inj (Option.some.inj h)
      rfl
    · obtain ⟨⟨rest', id'⟩, hr, he⟩ := Option.map_eq_some_iff.mp h
      obtain ⟨rfl, -⟩ := Prod.mk.inj he
      rw [List.map_cons, List.map_cons, schemas_addRowTo hr]

/-- A row is inserted into a project that is known, whose tables alone change. -/
theorem insertRow_eq_ok {s s' : MemoryStore} {project table id : String} {row : Row}
    (h : s.insertRow project table row = .ok (s', id)) :
    ∃ tables, MemoryTable.addRowTo table row (s.tablesOf project) = some (tables, id) ∧
      project ∈ s.projects.keys ∧ s' = ⟨s.projects.insert project tables⟩ := by
  unfold insertRow at h
  split at h
  · cases h
  · rename_i tables hg
    have htables : s.tablesOf project = tables := by rw [tablesOf, hg, Option.getD_some]
    split at h
    · cases h
    · rename_i tables' id' ha
      obtain ⟨rfl, rfl⟩ := Prod.mk.inj (Except.ok.inj h)
      exact ⟨tables', htables ▸ ha, OrderedMap.mem_keys_of_get? hg, rfl⟩

theorem WellFormed.insertRow {s s' : MemoryStore} (h : s.WellFormed) {project table id : String}
    {row : Row} (hr : s.insertRow project table row = .ok (s', id)) : s'.WellFormed := by
  obtain ⟨tables, hadd, -, rfl⟩ := insertRow_eq_ok hr
  have hs := schemas_addRowTo hadd
  refine h.insert ?_ ?_
  · intro t' ht'
    have hm : t'.schema ∈ (s.tablesOf project).map (·.schema) := hs ▸ List.mem_map_of_mem ht'
    obtain ⟨t, hmem, he⟩ := List.mem_map.mp hm
    rw [← he]
    exact h.id_eq project t hmem
  · have hnames : tables.map (·.schema.name) = (s.tablesOf project).map (·.schema.name) := by
      simpa only [List.map_map, Function.comp_def] using congrArg (List.map (·.name)) hs
    rw [hnames]
    exact h.names_nodup project

theorem WellFormed.insertRows {project table : String} : ∀ {rows : List Row} {s s' : MemoryStore},
    s.WellFormed → Fixture.insertRows project table s rows = .ok s' → s'.WellFormed
  | [], s, s', h, hr => by
    obtain rfl : s = s' := Except.ok.inj hr
    exact h
  | row :: rows, s, s', h, hr => by
    unfold Fixture.insertRows at hr
    split at hr
    · cases hr
    · rename_i s1 id h1
      exact (h.insertRow h1).insertRows hr

theorem wellFormed_load {projects : List Fixture.Project} {s : MemoryStore}
    (h : Fixture.load projects = .ok s) : s.WellFormed := by
  refine foldlM_induction (fun s p s' hs hp => ?_) wellFormed_empty h
  refine foldlM_induction (fun s t s' hs ht => ?_) (hs.addProject p.id) hp
  exact (hs.createTable p.id t.name t.allColumns).insertRows ht

theorem Reachable.wellFormed {s : MemoryStore} (h : s.Reachable) : s.WellFormed := by
  induction h with
  | empty => exact wellFormed_empty
  | loaded hl => exact wellFormed_load hl
  | created project name columns _ ih => exact ih.createTable project name columns
  | inserted _ hr ih => exact ih.insertRow hr

/-! ### Fetching -/

/-- No name of a project has a colon. -/
def HasColonFreeIds (s : MemoryStore) : Prop := ∀ project ∈ s.projects.keys, ':' ∉ project.toList

/-- The documents of a table of a project, oldest first. -/
def documentsOf (s : MemoryStore) (project table : String) : List Document :=
  match (s.tablesOf project).find? (·.schema.name == table) with
  | some t => t.documents
  | none => []

theorem mem_keys_of_mem_tablesOf {s : MemoryStore} {project : String} {t : MemoryTable}
    (h : t ∈ s.tablesOf project) : project ∈ s.projects.keys := by
  unfold tablesOf at h
  cases hg : s.projects.get? project with
  | none => rw [hg] at h; cases h
  | some tables => exact OrderedMap.mem_keys_of_get? hg

theorem mem_tables_iff {s : MemoryStore} {t : MemoryTable} :
    t ∈ s.projects.values.flatten ↔ ∃ project, t ∈ s.tablesOf project := by
  rw [List.mem_flatten]
  constructor
  · rintro ⟨tables, hm, ht⟩
    obtain ⟨project, hg⟩ := (OrderedMap.mem_values_iff _ _).mp hm
    exact ⟨project, by rw [tablesOf, hg]; exact ht⟩
  · rintro ⟨project, ht⟩
    unfold tablesOf at ht
    cases hg : s.projects.get? project with
    | none => rw [hg] at ht; cases ht
    | some tables =>
      rw [hg] at ht
      exact ⟨tables, (OrderedMap.mem_values_iff _ _).mpr ⟨project, hg⟩, ht⟩

/-- Within a project a name belongs to one table. -/
theorem WellFormed.eq_of_name {s : MemoryStore} (h : s.WellFormed) {project : String}
    {t u : MemoryTable} (ht : t ∈ s.tablesOf project) (hu : u ∈ s.tablesOf project)
    (he : t.schema.name = u.schema.name) : t = u :=
  List.inj_on_of_nodup_map (h.names_nodup project) ht hu he

/-- No table of another project has the identifier of a table of this one. -/
def OwnsIds (s : MemoryStore) (project : String) : Prop :=
  ∀ t ∈ s.tablesOf project, ∀ other, ∀ u ∈ s.tablesOf other, u.schema.id = t.schema.id →
    other = project

/-- Without colons in the names of projects, each has its identifiers for itself. -/
theorem WellFormed.ownsIds {s : MemoryStore} (h : s.WellFormed) (hids : s.HasColonFreeIds)
    (project : String) : s.OwnsIds project := by
  intro t ht other u hu hid
  rw [h.id_eq other u hu, h.id_eq project t ht] at hid
  exact (tableId_inj (hids _ (mem_keys_of_mem_tablesOf hu))
    (hids _ (mem_keys_of_mem_tablesOf ht)) hid).1

/-- An identifier that the project has for itself belongs to one table. -/
theorem WellFormed.tableWithId? {s : MemoryStore} (h : s.WellFormed) {project : String}
    (hown : s.OwnsIds project) {t : MemoryTable} (ht : t ∈ s.tablesOf project) :
    s.tableWithId? t.schema.id = some t := by
  refine find?_of_unique (mem_tables_iff.mpr ⟨project, ht⟩) (by simp) fun u hu hf => ?_
  obtain ⟨other, hu⟩ := mem_tables_iff.mp hu
  have hid : u.schema.id = t.schema.id := by simpa using hf
  obtain rfl := hown t ht other u hu hid
  rw [h.id_eq other u hu, h.id_eq other t ht] at hid
  exact h.eq_of_name hu ht (by simpa [tableId] using hid)

/-- The schema of a project lists its tables. -/
theorem tables_of_schema {s : MemoryStore} {project : String} {schema : ProjectSchema}
    (h : s.schema project = .ok schema) :
    schema.tables = (s.tablesOf project).map (·.schema) := by
  unfold MemoryStore.schema at h
  cases hg : s.projects.get? project with
  | none => rw [hg] at h; cases h
  | some tables =>
    rw [hg] at h
    obtain rfl := Except.ok.inj h
    simp [tablesOf, hg]

/-- A fetch for a project that has its identifiers for itself gives the first documents of the table
that satisfy the conditions. -/
theorem WellFormed.fetch_eq {s : MemoryStore} (h : s.WellFormed) {project : String}
    (hown : s.OwnsIds project) {schema : ProjectSchema} (hschema : s.schema project = .ok schema)
    {t : TableSchema} (ht : t ∈ schema.tables) (predicates : List Predicate) (limit : Nat) :
    s.fetch t predicates limit =
      .ok (((s.documentsOf project t.name).filter (holdsAll predicates)).take limit) := by
  rw [tables_of_schema hschema] at ht
  obtain ⟨table, hmem, rfl⟩ := List.mem_map.mp ht
  have hfind : (s.tablesOf project).find? (·.schema.name == table.schema.name) = some table :=
    find?_of_unique hmem (by simp) fun u hu hf => h.eq_of_name hu hmem (by simpa using hf)
  simp only [fetch, h.tableWithId? hown hmem, documentsOf, hfind]

/-- A fetch gives the first documents of the table that satisfy the conditions. -/
theorem Reachable.fetch_eq {s : MemoryStore} (h : s.Reachable) (hids : s.HasColonFreeIds)
    {project : String} {schema : ProjectSchema} (hschema : s.schema project = .ok schema)
    {t : TableSchema} (ht : t ∈ schema.tables) (predicates : List Predicate) (limit : Nat) :
    s.fetch t predicates limit =
      .ok (((s.documentsOf project t.name).filter (holdsAll predicates)).take limit) :=
  h.wellFormed.fetch_eq (h.wellFormed.ownsIds hids project) hschema ht predicates limit

end MemoryStore
end DocumentSql
