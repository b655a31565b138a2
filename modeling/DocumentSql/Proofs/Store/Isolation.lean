/-
# Projects are apart as long as their identifiers are

The tables of a project come from its own steps, so the steps of other projects
do not change its schema. Tables are fetched by identifier over all projects,
and `a:b` with a table `c` has the same identifier as `a` with a table `b:c`:
then a query on one project is answered with the rows of the other
(`answer_from_another_project`). A project that has its identifiers for itself
(`MemoryStore.OwnsIds`) gets its own rows only: what is fetched for it was
inserted into it, and is the same without the steps of other projects
(`MemoryStore.run_isolated`).

Key theorem: `MemoryStore.run_isolated`.
-/
import DocumentSql.Proofs.Select.Sources
import DocumentSql.Proofs.Select.Accepted
import DocumentSql.Proofs.Store.Steps

namespace DocumentSql
namespace MemoryStore

theorem schema_run_ownSteps (steps : List StoreStep) (project : String) :
    (run (ownSteps project steps)).schema project = (run steps).schema project := by
  rw [schema, get?_run_ownSteps, ← schema]

theorem documentsOf_run_ownSteps (steps : List StoreStep) (project table : String) :
    (run (ownSteps project steps)).documentsOf project table =
      (run steps).documentsOf project table := by
  rw [documentsOf, tablesOf_run_ownSteps, ← documentsOf]

/-- The steps of one project make tables in no other. -/
theorem tablesOf_run_ownSteps_of_ne (steps : List StoreStep) {project other : String}
    (h : other ≠ project) : (run (ownSteps project steps)).tablesOf other = [] := by
  have hnone : ownSteps other (ownSteps project steps) = [] := by
    rw [ownSteps, List.filter_eq_nil_iff]
    intro step hs
    have hp : step.project = project := by simpa using (List.mem_filter.mp hs).2
    simpa [hp] using Ne.symm h
  rw [← tablesOf_run_ownSteps, hnone]
  rfl

theorem ownsIds_run_ownSteps (steps : List StoreStep) (project : String) :
    (run (ownSteps project steps)).OwnsIds project := by
  intro t _ other u hu _
  by_contra hne
  rw [tablesOf_run_ownSteps_of_ne steps hne] at hu
  cases hu

/-- A project that has its identifiers for itself fetches what its own steps made. -/
theorem fetch_run_ownSteps {steps : List StoreStep} {project : String}
    (hown : (run steps).OwnsIds project) {schema : ProjectSchema}
    (hschema : (run steps).schema project = .ok schema) {t : TableSchema} (ht : t ∈ schema.tables)
    (predicates : List Predicate) (limit : Nat) :
    (run (ownSteps project steps)).fetch t predicates limit =
      (run steps).fetch t predicates limit := by
  have hschema' := (schema_run_ownSteps steps project).trans hschema
  rw [(reachable_run steps).wellFormed.fetch_eq hown hschema ht,
    (reachable_run _).wellFormed.fetch_eq (ownsIds_run_ownSteps steps project) hschema' ht,
    documentsOf_run_ownSteps]

/-- **Projects are apart.** Without the steps of other projects a project has the same schema; if it
has its identifiers for itself, the same documents are fetched for its tables, all of them inserted
into it, and every query on it is answered alike. -/
theorem run_isolated (steps : List StoreStep) (project : String) :
    (run (ownSteps project steps)).schema project = (run steps).schema project ∧
    ((run steps).OwnsIds project →
      (∀ schema, (run steps).schema project = .ok schema → ∀ t ∈ schema.tables,
        ∀ (predicates : List Predicate) (limit : Nat),
          (run (ownSteps project steps)).fetch t predicates limit =
              (run steps).fetch t predicates limit ∧
            ∃ documents, (run steps).fetch t predicates limit = .ok documents ∧
              ∀ d ∈ documents, .insert project t.name d.data ∈ steps) ∧
      ∀ (rowCap : Nat) (sql : String),
        (run (ownSteps project steps)).source.answer rowCap project sql =
          (run steps).source.answer rowCap project sql) := by
  refine ⟨schema_run_ownSteps steps project, fun hown => ⟨?_, fun rowCap sql => ?_⟩⟩
  · intro schema hschema t ht predicates limit
    refine ⟨fetch_run_ownSteps hown hschema ht predicates limit, _,
      (reachable_run steps).wellFormed.fetch_eq hown hschema ht predicates limit, fun d hd => ?_⟩
    exact mem_of_mem_documentsOf_run (List.mem_filter.mp (List.mem_of_mem_take hd)).1
  · refine RowSource.answer_congr (schema_run_ownSteps steps project) fun schema hs p hp t ht => ?_
    have hschema : (run steps).schema project = .ok schema :=
      (schema_run_ownSteps steps project).symm.trans hs
    have hmem := (Plan.ofQuery_eq_ok_iff.mp hp).mem_schema ht
    exact congrArg rowsFetched (fetch_run_ownSteps hown hschema hmem _ _)

/-- Two projects with a table of the same name, and a step that fails. -/
def sameNameSteps : List StoreStep :=
  [.create "a" "t" ["v"], .create "b" "t" ["v"], .insert "a" "t" (.ofList [("v", .int 1)]),
    .insert "b" "u" (.ofList [("v", .int 3)]), .insert "b" "t" (.ofList [("v", .int 2)])]

theorem run_isolated_sameName :
    (run sameNameSteps).OwnsIds "b" ∧
      (run (ownSteps "b" sameNameSteps)).source.answer 10 "b" "SELECT v FROM t" =
        (run sameNameSteps).source.answer 10 "b" "SELECT v FROM t" ∧
      (run sameNameSteps).source.answer 10 "b" "SELECT v FROM t" =
        .ok ⟨"SELECT v FROM t", [.ofList [("v", .int 2)]], 1, 0, ["t"]⟩ := by
  have hids : (run sameNameSteps).HasColonFreeIds := by
    unfold HasColonFreeIds
    decide +kernel
  have hown := (reachable_run sameNameSteps).wellFormed.ownsIds hids "b"
  exact ⟨hown, ((run_isolated sameNameSteps "b").2 hown).2 10 "SELECT v FROM t",
    by decide +kernel⟩

/-- A table `b:c` of `a`, and a table `c` of `a:b`, which has the same identifier. -/
def sharedIdSteps : List StoreStep :=
  [.create "a" "b:c" ["v"], .insert "a" "b:c" (.ofList [("v", .int 1)]), .create "a:b" "c" ["v"]]

/-- A query on a project without rows is answered with a row of another project. -/
theorem answer_from_another_project :
    (run sharedIdSteps).source.answer 10 "a:b" "SELECT v FROM c" =
        .ok ⟨"SELECT v FROM c", [.ofList [("v", .int 1)]], 1, 0, ["c"]⟩ ∧
      (run (ownSteps "a:b" sharedIdSteps)).source.answer 10 "a:b" "SELECT v FROM c" =
        .ok ⟨"SELECT v FROM c", [], 0, 0, ["c"]⟩ := by
  decide +kernel

end MemoryStore
end DocumentSql
