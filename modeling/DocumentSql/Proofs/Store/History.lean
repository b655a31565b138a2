/-
# What a history leaves in a store

A history is a list of steps. At any time the tables of a project are those that
its history has created, each at the place of its last creation and with the
rows that were inserted from there on (`lastTables`). One more step does to this
list what it does to the tables of the store (`lastTables_concat_create`,
`lastTables_concat_insert`, `MemoryStore.Records.apply`), so a whole run keeps
them alike (`MemoryStore.Records.run`).

Key definitions: `lastTables`, `Fixture.Table.stored`, `MemoryStore.Records`.
Key theorems: `lastTables_concat_create`, `lastTables_concat_insert`,
`MemoryStore.Records.apply`, `MemoryStore.Records.run`.
-/
import DocumentSql.Proofs.Store.OrderlyRuns

namespace DocumentSql

/-! ### What a history leaves -/

/-- Whether a step creates the table. -/
def StoreStep.creates (project table : String) : StoreStep → Bool
  | .create own name _ => own == project && name == table
  | .insert .. => false

/-- Whether some step creates the table. -/
def isCreated (project table : String) (steps : List StoreStep) : Bool :=
  steps.any (·.creates project table)

theorem isCreated_concat (project table : String) (steps : List StoreStep) (step : StoreStep) :
    isCreated project table (steps ++ [step]) =
      (isCreated project table steps || step.creates project table) := by
  simp [isCreated]

/-- The tables of a project that a history leaves: each where it was created last, with the rows
inserted into it from there on. -/
def lastTables (project : String) : List StoreStep → List Fixture.Table
  | [] => []
  | .create own name columns :: later =>
    if own = project ∧ isCreated project name later = false then
      ⟨name, columns, rowsInto project name later⟩ :: lastTables project later
    else lastTables project later
  | .insert .. :: later => lastTables project later

/-- A table with one more row, if it is the one of that name. -/
def Fixture.Table.withRow (name : String) (row : Row) (t : Fixture.Table) : Fixture.Table :=
  if t.name = name then { t with rows := t.rows ++ [row] } else t

section LastTables

variable (project : String) (history : List StoreStep)

theorem lastTables_concat_create (own name : String) (columns : List String) :
    lastTables project (history ++ [.create own name columns]) =
      if own = project then
        (lastTables project history).filter (·.name != name) ++ [⟨name, columns, []⟩]
      else lastTables project history := by
  induction history with
  | nil => by_cases hown : own = project <;> simp [lastTables, hown, rowsInto, isCreated]
  | cons first later ih =>
    cases first with
    | insert => exact ih
    | create other table listed =>
      have hrows : rowsInto project table (later ++ [.create own name columns]) =
          rowsInto project table later := by
        rw [rowsInto_concat, StoreStep.rowInto?, Option.toList_none, List.append_nil]
      have hcreated : isCreated project table (later ++ [.create own name columns]) =
          (isCreated project table later || (own == project && name == table)) :=
        isCreated_concat project table later _
      rw [List.cons_append, lastTables, lastTables, ih, hrows, hcreated]
      by_cases hown : own = project
      · by_cases hlast : other = project ∧ isCreated project table later = false
        · by_cases hname : name = table
          · -- the creation in front is not the last one any more
            simp [hown, hlast, hname]
          · simp [hown, hlast, hname, Ne.symm hname]
        · rw [if_neg hlast, if_neg fun h => hlast ⟨h.1, (Bool.or_eq_false_iff.mp h.2).1⟩]
      · simp [hown]

theorem lastTables_concat_insert (own name : String) (row : Row) :
    lastTables project (history ++ [.insert own name row]) =
      if own = project then (lastTables project history).map (·.withRow name row)
      else lastTables project history := by
  induction history with
  | nil => by_cases hown : own = project <;> simp [lastTables, hown]
  | cons first later ih =>
    cases first with
    | insert => exact ih
    | create other table listed =>
      have hcreated : isCreated project table (later ++ [.insert own name row]) =
          isCreated project table later := by
        rw [isCreated_concat, StoreStep.creates, Bool.or_false]
      rw [List.cons_append, lastTables, lastTables, ih, hcreated, rowsInto_concat,
        StoreStep.rowInto?]
      by_cases hown : own = project
      · by_cases hlast : other = project ∧ isCreated project table later = false
        · by_cases hname : name = table
          · simp [hown, hlast, hname, Fixture.Table.withRow]
          · simp [hown, hlast, hname, Fixture.Table.withRow, Ne.symm hname]
        · rw [if_neg hlast, if_neg hlast]
      · simp [hown]

variable {project history}

/-- A table that is left was created, not created again later, and has the rows inserted since. -/
theorem exists_of_mem_lastTables {t : Fixture.Table} (h : t ∈ lastTables project history) :
    ∃ before later, history = before ++ .create project t.name t.columns :: later ∧
      isCreated project t.name later = false ∧ t.rows = rowsInto project t.name later := by
  induction history with
  | nil => cases h
  | cons first history ih =>
    have hbehind : t ∈ lastTables project history →
        ∃ before later, first :: history = before ++ .create project t.name t.columns :: later ∧
          isCreated project t.name later = false ∧
          t.rows = rowsInto project t.name later := by
      intro hmem
      obtain ⟨before, later, rfl, hlast, hrows⟩ := ih hmem
      exact ⟨first :: before, later, rfl, hlast, hrows⟩
    cases first with
    | insert => exact hbehind h
    | create own name columns =>
      rw [lastTables] at h
      split at h
      · rename_i hlast
        obtain ⟨rfl, hlast⟩ := hlast
        rcases List.mem_cons.mp h with rfl | hmem
        · exact ⟨[], history, rfl, hlast, rfl⟩
        · exact hbehind hmem
      · exact hbehind h

end LastTables

/-! ### The tables of a store -/

/-- The rows as documents of a table, numbered from one. -/
def numbered (table : String) (rows : List Row) : List Document :=
  rows.mapIdx fun k row => ⟨table ++ "-" ++ Decimal.natText (k + 1), row⟩

/-- A table as a store holds it. -/
def Fixture.Table.stored (project : String) (t : Fixture.Table) : MemoryTable :=
  ⟨⟨tableId project t.name, t.name, t.columns⟩, numbered t.name t.rows⟩

theorem stored_withRow (project name : String) (row : Row) (t : Fixture.Table) :
    (t.withRow name row).stored project =
      if t.name = name then ((t.stored project).addRow row).1 else t.stored project := by
  have hnumbered : numbered t.name (t.rows ++ [row]) = numbered t.name t.rows ++
      [⟨t.name ++ "-" ++ Decimal.natText (t.rows.length + 1), row⟩] := by
    simp [numbered, List.mapIdx_append]
  have hlength : (numbered t.name t.rows).length = t.rows.length := List.length_mapIdx
  unfold Fixture.Table.withRow
  split
  · simp only [Fixture.Table.stored, MemoryTable.addRow, hnumbered, hlength]
  · rfl

theorem eq_map_of_addRowTo {name id : String} {row : Row} :
    ∀ {tables tables' : List MemoryTable}, (tables.map (·.schema.name)).Nodup →
      MemoryTable.addRowTo name row tables = some (tables', id) →
      tables' = tables.map (fun t => if t.schema.name = name then (t.addRow row).1 else t) ∧
        ∀ t ∈ tables, t.schema.name = name → id = (t.addRow row).2
  | [], _, _, h => by cases h
  | t :: tables, tables', hn, h => by
    rw [List.map_cons, List.nodup_cons] at hn
    unfold MemoryTable.addRowTo at h
    split at h
    · rename_i hname
      obtain ⟨rfl, rfl⟩ := Prod.mk.inj (Option.some.inj h)
      have hother : ∀ u ∈ tables, u.schema.name ≠ name := by
        intro u hu heq
        apply hn.1
        rw [hname, ← heq]
        exact List.mem_map_of_mem hu
      refine ⟨?_, ?_⟩
      · rw [List.map_cons, if_pos hname, map_ite_of_forall_not _ hother]
      · rw [List.forall_mem_cons]
        exact ⟨fun _ => rfl, fun u hu heq => absurd heq (hother u hu)⟩
    · rename_i hname
      obtain ⟨⟨rest, id'⟩, hr, he⟩ := Option.map_eq_some_iff.mp h
      obtain ⟨rfl, rfl⟩ := Prod.mk.inj he
      obtain ⟨hrest, hid⟩ := eq_map_of_addRowTo hn.2 hr
      refine ⟨?_, ?_⟩
      · rw [List.map_cons, if_neg hname, hrest]
      · rw [List.forall_mem_cons]
        exact ⟨fun heq => absurd heq hname, hid⟩

namespace MemoryStore

variable {s : MemoryStore}

/-- An insertion puts the row behind those of its table, under the identifier that it returns. -/
theorem WellFormed.tablesOf_insertRow (hs : s.WellFormed) {s' : MemoryStore}
    {project name id : String} {row : Row} (h : s.insertRow project name row = .ok (s', id)) :
    (∀ other, s'.tablesOf other =
        if project = other then
          (s.tablesOf other).map fun t => if t.schema.name = name then (t.addRow row).1 else t
        else s.tablesOf other) ∧
      ∀ t ∈ s.tablesOf project, t.schema.name = name → id = (t.addRow row).2 := by
  obtain ⟨tables, ha, -, rfl⟩ := insertRow_eq_ok h
  obtain ⟨hmap, hid⟩ := eq_map_of_addRowTo (hs.names_nodup project) ha
  refine ⟨fun other => ?_, hid⟩
  rw [tablesOf_insert, hmap]
  split
  · rename_i hown
    rw [hown]
  · rfl

/-! ### A step and a run -/

/-- The projects of a store are those that were added and those in which tables were created, and
its tables are those that the history leaves. -/
structure Records (s : MemoryStore) (added : List String) (history : List StoreStep) : Prop where
  wellFormed : s.WellFormed
  mem_keys_iff : ∀ project, project ∈ s.projects.keys ↔
    project ∈ added ∨ ∃ name columns, .create project name columns ∈ history
  tablesOf_eq : ∀ project,
    s.tablesOf project = (lastTables project history).map (·.stored project)

variable {added : List String} {history : List StoreStep}

theorem records_empty : Records .empty [] [] where
  wellFormed := wellFormed_empty
  mem_keys_iff project := by simp [empty, OrderedMap.keys, OrderedMap.empty]
  tablesOf_eq _ := rfl

/-- A project that is added is known, and has the tables that it had. -/
theorem Records.addProject (h : s.Records added history) (project : String) :
    (s.addProject project).Records (added ++ [project]) history where
  wellFormed := h.wellFormed.addProject project
  mem_keys_iff other := by
    rw [MemoryStore.addProject, OrderedMap.mem_keys_insert, h.mem_keys_iff, List.mem_append,
      List.mem_singleton, or_right_comm]
  tablesOf_eq other := by
    rw [MemoryStore.addProject, tablesOf_insert, ← h.tablesOf_eq other]
    split
    · rename_i hown
      rw [hown]
    · rfl

theorem Records.create (h : s.Records added history) (project name : String)
    (columns : List String) :
    (s.createTable project name columns).Records added
      (history ++ [.create project name columns]) where
  wellFormed := h.wellFormed.createTable project name columns
  mem_keys_iff other := by
    have hcreated : (∃ n cs, .create other n cs ∈ history ++ [.create project name columns]) ↔
        (∃ n cs, .create other n cs ∈ history) ∨ other = project := by
      simp only [List.mem_append, List.mem_singleton, StoreStep.create.injEq]
      constructor
      · rintro ⟨n, cs, hold | hnew⟩
        · exact .inl ⟨n, cs, hold⟩
        · exact .inr hnew.1
      · rintro (⟨n, cs, hold⟩ | hnew)
        · exact ⟨n, cs, .inl hold⟩
        · exact ⟨name, columns, .inr ⟨hnew, rfl, rfl⟩⟩
    rw [createTable, OrderedMap.mem_keys_insert, h.mem_keys_iff, hcreated, or_assoc]
  tablesOf_eq other := by
    rw [createTable, tablesOf_insert, lastTables_concat_create]
    split
    · rename_i hown
      subst hown
      rw [h.tablesOf_eq, List.map_append, List.filter_map]
      rfl
    · exact h.tablesOf_eq other

/-- An insertion tells nothing new of the projects. -/
theorem exists_create_concat_insert {project other name : String} {row : Row} :
    (∃ n cs, .create other n cs ∈ history ++ [.insert project name row]) ↔
      ∃ n cs, .create other n cs ∈ history := by
  simp only [List.mem_append, List.mem_singleton, reduceCtorEq, or_false]

theorem Records.insert (h : s.Records added history) {project name id : String} {row : Row}
    {s' : MemoryStore} (hr : s.insertRow project name row = .ok (s', id)) :
    s'.Records added (history ++ [.insert project name row]) where
  wellFormed := h.wellFormed.insertRow hr
  mem_keys_iff other := by
    obtain ⟨tables, -, hknown, rfl⟩ := insertRow_eq_ok hr
    rw [exists_create_concat_insert, ← h.mem_keys_iff, OrderedMap.mem_keys_insert]
    exact ⟨fun hmem => hmem.elim (fun hold => hold) fun he => he ▸ hknown, .inl⟩
  tablesOf_eq other := by
    rw [(h.wellFormed.tablesOf_insertRow hr).1, lastTables_concat_insert]
    split
    · rw [h.tablesOf_eq, List.map_map, List.map_map]
      refine List.map_congr_left fun t _ => ?_
      exact (stored_withRow other name row t).symm
    · exact h.tablesOf_eq other

/-- A row without a table is left out of the history as well. -/
theorem Records.insert_of_error (h : s.Records added history) {project name : String} {row : Row}
    {e : StoreError} (hr : s.insertRow project name row = .error e) :
    s.Records added (history ++ [.insert project name row]) where
  wellFormed := h.wellFormed
  mem_keys_iff other := by rw [exists_create_concat_insert, h.mem_keys_iff]
  tablesOf_eq other := by
    rw [lastTables_concat_insert, h.tablesOf_eq]
    split
    · rename_i hown
      subst hown
      have hnone := notMem_names_of_insertRow_error hr
      have hother : ∀ t ∈ lastTables project history, ¬ t.name = name := by
        intro t ht hname
        apply hnone
        rw [h.tablesOf_eq, List.map_map]
        exact List.mem_map.mpr ⟨t, ht, hname⟩
      have hsame : (lastTables project history).map (·.withRow name row) =
          lastTables project history := map_ite_of_forall_not _ hother
      rw [hsame]
    · rfl

theorem Records.apply (h : s.Records added history) (step : StoreStep) :
    (s.apply step).Records added (history ++ [step]) := by
  cases step with
  | create project name columns => exact h.create project name columns
  | insert project name row =>
    cases hr : s.insertRow project name row with
    | error e => simpa only [MemoryStore.apply, hr] using h.insert_of_error hr
    | ok after => simpa only [MemoryStore.apply, hr] using h.insert hr

theorem Records.run : ∀ {s : MemoryStore} {history : List StoreStep}, s.Records added history →
    ∀ steps : List StoreStep, (steps.foldl MemoryStore.apply s).Records added (history ++ steps)
  | _, history, h, [] => (List.append_nil history).symm ▸ h
  | _, history, h, step :: steps => by
    rw [List.foldl_cons, ← List.singleton_append, ← List.append_assoc]
    exact (h.apply step).run steps

end MemoryStore
end DocumentSql
