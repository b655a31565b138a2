/-
# Runs of operations

A run is a list of steps, each of which creates a table or inserts a row. A
step that fails leaves the store as it is. What a step does to a `MemoryStore`
it does to the tables of its own project, and it goes by these tables only
(`MemoryStore.get?_apply`); so the tables of a project come from its own steps
(`MemoryStore.get?_run_ownSteps`), and a document of a table was inserted into
that table (`MemoryStore.mem_of_mem_documentsOf_run`). An insertion fails exactly
if its table is not there (`MemoryStore.insertRow_eq_error_iff`).

Key definitions: `StoreStep`, `MemoryStore.apply`, `MemoryStore.run`, `ownSteps`.
Key theorems: `MemoryStore.get?_apply`, `MemoryStore.get?_run_ownSteps`,
`MemoryStore.reachable_run`.
-/
import DocumentSql.Proofs.Store.Reachable
import Mathlib.Data.List.Induction

namespace DocumentSql

/-- An operation on a store. -/
inductive StoreStep where
  | create (project table : String) (columns : List String)
  | insert (project table : String) (row : Row)
deriving DecidableEq

namespace StoreStep

/-- The project of the step. -/
def project : StoreStep → String
  | .create project _ _ => project
  | .insert project _ _ => project

/-- The table of the step. -/
def table : StoreStep → String
  | .create _ table _ => table
  | .insert _ table _ => table

end StoreStep

/-- The steps of one project. -/
def ownSteps (project : String) (steps : List StoreStep) : List StoreStep :=
  steps.filter (·.project == project)

theorem ownSteps_concat (project : String) (steps : List StoreStep) (step : StoreStep) :
    ownSteps project (steps ++ [step]) =
      if step.project = project then ownSteps project steps ++ [step]
      else ownSteps project steps := by
  rw [ownSteps, List.filter_append, ← ownSteps]
  by_cases h : step.project = project <;> simp [h]

namespace MemoryStore

/-- The store after a step. -/
def apply (s : MemoryStore) : StoreStep → MemoryStore
  | .create project table columns => s.createTable project table columns
  | .insert project table row =>
    match s.insertRow project table row with
    | .ok (s', _) => s'
    | .error _ => s

/-- The store after a run. -/
def run (steps : List StoreStep) : MemoryStore := steps.foldl apply .empty

theorem run_concat (steps : List StoreStep) (step : StoreStep) :
    run (steps ++ [step]) = (run steps).apply step := by
  rw [run, List.foldl_append, List.foldl_cons, List.foldl_nil, ← run]

theorem Reachable.apply {s : MemoryStore} (h : s.Reachable) (step : StoreStep) :
    (s.apply step).Reachable := by
  cases step with
  | create project table columns => exact h.created project table columns
  | insert project table row =>
    cases hr : s.insertRow project table row with
    | error e => simpa only [MemoryStore.apply, hr] using h
    | ok after => simpa only [MemoryStore.apply, hr] using h.inserted hr

theorem reachable_run (steps : List StoreStep) : (run steps).Reachable := by
  induction steps using List.reverseRecOn with
  | nil => exact .empty
  | append_singleton steps step ih => exact run_concat steps step ▸ ih.apply step

/-! ### What a step does to the tables of its project -/

/-- The tables of the project of a step after it; there are none if the project is not known. -/
def tablesAfter (tables : Option (List MemoryTable)) : StoreStep → Option (List MemoryTable)
  | .create project table columns =>
    some ((tables.getD []).filter (·.schema.name != table) ++
      [⟨⟨tableId project table, table, columns⟩, []⟩])
  | .insert _ table row =>
    tables.map fun ts => ((MemoryTable.addRowTo table row ts).map Prod.fst).getD ts

/-- A step changes the tables of its project, and these by themselves. -/
theorem get?_apply (s : MemoryStore) (step : StoreStep) (project : String) :
    (s.apply step).projects.get? project =
      if step.project = project then tablesAfter (s.projects.get? project) step
      else s.projects.get? project := by
  cases step with
  | create own table columns =>
    rw [apply, createTable, OrderedMap.get?_insert]
    by_cases h : own = project
    · subst h
      simp [StoreStep.project, tablesAfter, tablesOf]
    · simp [StoreStep.project, h]
  | insert own table row =>
    simp only [apply, insertRow, StoreStep.project, tablesAfter]
    by_cases h : own = project
    · subst h
      cases hg : s.projects.get? own with
      | none => simp [hg]
      | some tables =>
        cases ha : MemoryTable.addRowTo table row tables with
        | none => simp [hg, ha]
        | some added => simp [ha, OrderedMap.get?_insert]
    · cases s.projects.get? own with
      | none => simp [h]
      | some tables =>
        cases ha : MemoryTable.addRowTo table row tables with
        | none => simp [ha, h]
        | some added => simp [ha, h, OrderedMap.get?_insert]

/-- The tables of a project come from its own steps. -/
theorem get?_run_ownSteps (steps : List StoreStep) (project : String) :
    (run (ownSteps project steps)).projects.get? project =
      (run steps).projects.get? project := by
  induction steps using List.reverseRecOn with
  | nil => rfl
  | append_singleton steps step ih =>
    rw [run_concat, get?_apply, ownSteps_concat]
    by_cases h : step.project = project
    · rw [if_pos h, if_pos h, run_concat, get?_apply, if_pos h, ih]
    · rw [if_neg h, if_neg h, ih]

theorem tablesOf_run_ownSteps (steps : List StoreStep) (project : String) :
    (run (ownSteps project steps)).tablesOf project = (run steps).tablesOf project := by
  rw [tablesOf, get?_run_ownSteps, ← tablesOf]

/-! ### When an insertion fails -/

theorem addRowTo_eq_none_iff {name : String} {row : Row} : ∀ {tables : List MemoryTable},
    MemoryTable.addRowTo name row tables = none ↔ name ∉ tables.map (·.schema.name)
  | [] => by simp [MemoryTable.addRowTo]
  | t :: tables => by
    by_cases ht : t.schema.name = name
    · simp [MemoryTable.addRowTo, ht]
    · simp [MemoryTable.addRowTo, ht, Ne.symm ht, addRowTo_eq_none_iff, Option.map_eq_none_iff]

/-- An insertion fails exactly if the project is not known or has no table of that name. -/
theorem insertRow_eq_error_iff {s : MemoryStore} {project name : String} {row : Row}
    {e : StoreError} :
    s.insertRow project name row = .error e ↔
      project ∉ s.projects.keys ∧ e = .projectNotFound project ∨
        project ∈ s.projects.keys ∧ name ∉ (s.tablesOf project).map (·.schema.name) ∧
          e = .tableMissing name := by
  cases hg : s.projects.get? project with
  | none =>
    have hunknown : project ∉ s.projects.keys := (OrderedMap.get?_eq_none_iff _ _).mp hg
    simp [insertRow, hg, hunknown, eq_comm]
  | some tables =>
    have hknown : project ∈ s.projects.keys := OrderedMap.mem_keys_of_get? hg
    have hlisted : name ∉ (s.tablesOf project).map (·.schema.name) ↔
        MemoryTable.addRowTo name row tables = none := by
      rw [addRowTo_eq_none_iff, tablesOf, hg, Option.getD_some]
    rw [hlisted]
    cases ha : MemoryTable.addRowTo name row tables with
    | none => simp [insertRow, hg, ha, hknown, eq_comm]
    | some added => simp [insertRow, hg, ha, hknown]

theorem notMem_names_of_insertRow_error {s : MemoryStore} {project name : String} {row : Row}
    {e : StoreError} (h : s.insertRow project name row = .error e) :
    name ∉ (s.tablesOf project).map (·.schema.name) := by
  rcases insertRow_eq_error_iff.mp h with ⟨hunknown, -⟩ | ⟨-, hnone, -⟩
  · intro hmem
    obtain ⟨t, ht, -⟩ := List.mem_map.mp hmem
    exact hunknown (mem_keys_of_mem_tablesOf ht)
  · exact hnone

/-! ### What a step does to the documents of a table -/

/-- A row is added to the table that is found under the name. -/
theorem exists_of_addRowTo {name id : String} {row : Row} : ∀ {tables tables' : List MemoryTable},
    MemoryTable.addRowTo name row tables = some (tables', id) →
    ∃ t, tables.find? (·.schema.name == name) = some t ∧ id = (t.addRow row).2 ∧
      ∀ other, tables'.find? (·.schema.name == other) =
        if name = other then some (t.addRow row).1 else tables.find? (·.schema.name == other)
  | [], _, h => by cases h
  | t :: rest, tables', h => by
    unfold MemoryTable.addRowTo at h
    split at h
    · rename_i hname
      obtain ⟨rfl, rfl⟩ := Prod.mk.inj (Option.some.inj h)
      refine ⟨t, by simp [hname], rfl, fun other => ?_⟩
      by_cases ho : name = other
      · simp [hname, ho, MemoryTable.addRow]
      · simp [hname, ho, MemoryTable.addRow]
    · rename_i hname
      obtain ⟨⟨rest', id'⟩, hr, he⟩ := Option.map_eq_some_iff.mp h
      obtain ⟨rfl, rfl⟩ := Prod.mk.inj he
      obtain ⟨u, hu, hid, hrest⟩ := exists_of_addRowTo hr
      refine ⟨u, by simp [hname, hu], hid, fun other => ?_⟩
      by_cases ho : t.schema.name = other
      · have hne : name ≠ other := fun hn => hname (ho.trans hn.symm)
        simp [ho, hne]
      · simp [ho, hrest]

theorem find?_filter_name_ne (tables : List MemoryTable) (removed name : String) :
    (tables.filter (·.schema.name != removed)).find? (·.schema.name == name) =
      if removed = name then none else tables.find? (·.schema.name == name) := by
  rw [List.find?_filter]
  by_cases hn : removed = name
  · rw [if_pos hn, List.find?_eq_none]
    intro t _
    simp [hn]
  · rw [if_neg hn]
    congr 1
    funext t
    by_cases ht : t.schema.name = name
    · simp [ht, Ne.symm hn]
    · simp [ht]

theorem documentsOf_createTable (s : MemoryStore) (project table : String) (columns : List String)
    (other name : String) :
    (s.createTable project table columns).documentsOf other name =
      if project = other ∧ table = name then [] else s.documentsOf other name := by
  rw [documentsOf, documentsOf, createTable, tablesOf_insert]
  by_cases hp : project = other
  · subst hp
    rw [if_pos rfl, List.find?_append, find?_filter_name_ne]
    by_cases hn : table = name
    · simp [hn]
    · simp [hn]
  · simp [hp]

theorem documentsOf_insertRow {s s' : MemoryStore} {project table id : String} {row : Row}
    (h : s.insertRow project table row = .ok (s', id)) (other name : String) :
    s'.documentsOf other name =
      if project = other ∧ table = name then s.documentsOf other name ++ [⟨id, row⟩]
      else s.documentsOf other name := by
  obtain ⟨tables, hadd, -, rfl⟩ := insertRow_eq_ok h
  obtain ⟨t, ht, hid, hfind⟩ := exists_of_addRowTo hadd
  rw [documentsOf, documentsOf, tablesOf_insert]
  by_cases hp : project = other
  · subst hp
    rw [if_pos rfl, hfind]
    by_cases hn : table = name
    · subst hn
      simp [ht, hid, MemoryTable.addRow]
    · simp [hn]
  · simp [hp]

/-- The documents of a table were inserted into it. -/
theorem mem_of_mem_documentsOf_run {steps : List StoreStep} {project table : String}
    {d : Document} (h : d ∈ (run steps).documentsOf project table) :
    .insert project table d.data ∈ steps := by
  induction steps using List.reverseRecOn with
  | nil => cases h
  | append_singleton steps step ih =>
    rw [List.mem_append, List.mem_singleton]
    rw [run_concat] at h
    cases step with
    | create own name columns =>
      rw [apply, documentsOf_createTable] at h
      split at h
      · cases h
      · exact .inl (ih h)
    | insert own name row =>
      cases hr : (run steps).insertRow own name row with
      | error e =>
        rw [apply, hr] at h
        exact .inl (ih h)
      | ok after =>
        rw [apply, hr] at h
        rw [documentsOf_insertRow hr] at h
        split at h
        · rename_i hown
          obtain ⟨rfl, rfl⟩ := hown
          rcases List.mem_append.mp h with h | h
          · exact .inl (ih h)
          · rw [List.mem_singleton.mp h]
            exact .inr rfl
        · exact .inl (ih h)

end MemoryStore
end DocumentSql
