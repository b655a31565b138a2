/-
# The two stores answer alike

After an orderly run the two stores hold the same rows under the same schemas.
A query is then answered alike, or fails alike, if its predicates mean the same
on stored rows (`Plan.IsSettledFor`): each has a null value, or a column that a
path can name and cells of the kind of its value, and there are not too many of
them on one table (`SerializedStore.answer_run`). A column with a quote or a
backslash is not found in stored rows, so that a condition on it leaves out rows
that it should keep (`SerializedStore.answer_run_quotedColumn`).

Key definition: `Plan.IsSettledFor`.
Key theorem: `SerializedStore.answer_run`.
-/
import DocumentSql.Proofs.Select.Accepted
import DocumentSql.Proofs.Select.Sources
import DocumentSql.Proofs.Store.Judging
import DocumentSql.Proofs.Store.OrderlyRuns

namespace DocumentSql

/-- A row that is inserted has no cell that holds a double. -/
def StoreStep.IsWithoutDoubles : StoreStep → Prop
  | .create .. => True
  | .insert _ _ row => row.IsWithoutDoubles

instance : ∀ step : StoreStep, Decidable step.IsWithoutDoubles
  | .create .. => .isTrue trivial
  | .insert _ _ row => inferInstanceAs (Decidable row.IsWithoutDoubles)

/-- The predicates of a plan can be asked for together, and each means the same on the rows of its
table as on the stored ones. -/
structure Plan.IsSettledFor (p : Plan) (rowsOf : String → List Row) : Prop where
  depth : ∀ t ∈ p.tables, Predicate.depthOf (p.predicatesFor t.name) ≤ Predicate.depthLimit
  settled : ∀ r ∈ p.routed, ∀ row ∈ rowsOf r.table, r.predicate.IsSettledFor row

theorem Plan.mem_predicatesFor {p : Plan} {table : String} {q : Predicate}
    (h : q ∈ p.predicatesFor table) : ∃ r ∈ p.routed, r.table = table ∧ r.predicate = q := by
  obtain ⟨r, hr, rfl⟩ := List.mem_map.mp h
  obtain ⟨hmem, htable⟩ := List.mem_filter.mp hr
  exact ⟨r, hmem, by simpa using htable, rfl⟩

theorem Plan.IsSettledFor.forall_predicatesFor {p : Plan} {rowsOf : String → List Row}
    (h : p.IsSettledFor rowsOf) (table : String) :
    ∀ q ∈ p.predicatesFor table, ∀ row ∈ rowsOf table, q.IsSettledFor row := by
  intro q hq row hrow
  obtain ⟨r, hr, rfl, rfl⟩ := mem_predicatesFor hq
  exact h.settled r hr row hrow

/-- A predicate of a plan compares as a condition of the query does. -/
theorem Plan.Accepts.comparison_ne_like {q : Query} {schema : ProjectSchema} {p : Plan}
    (h : Plan.Accepts q schema p) (hlike : ∀ c ∈ q.conditions, c.comparison ≠ .like)
    (table : String) : ∀ r ∈ p.predicatesFor table, r.comparison ≠ .like := by
  intro predicate hp
  obtain ⟨r, hr, -, rfl⟩ := mem_predicatesFor hp
  obtain ⟨c, hc, hroute⟩ := exists_of_mem_forall₂ (routeConditions_eq_ok h.routed) hr
  have hcomparison : r.predicate.comparison = c.comparison :=
    congrArg Predicate.comparison (routeCondition_eq_ok hroute).2
  exact hcomparison ▸ hlike c hc

/-- The rows that a fetch is to give. -/
def rowsSatisfying (predicates : List Predicate) (limit : Nat) (rows : List Row) : List Row :=
  (rows.filter fun row => predicates.all (·.holds row)).take limit

/-- The identifier of a table tells its project from all others. -/
theorem MemoryStore.id_of_schema_run {steps : List StoreStep} (h : IsOrderly steps)
    {project : String} {schema : ProjectSchema} (hschema : (run steps).schema project = .ok schema)
    {t : TableSchema} (ht : t ∈ schema.tables) :
    ':' ∉ project.toList ∧ t.id = tableId project t.name := by
  obtain ⟨table, htable, rfl⟩ := List.mem_map.mp (tables_of_schema hschema ▸ ht)
  exact ⟨hasColonFreeIds_run h.colonFree project (mem_keys_of_mem_tablesOf htable),
    (reachable_run steps).wellFormed.id_eq project table htable⟩

theorem MemoryStore.rowsFetched_run {steps : List StoreStep} (h : IsOrderly steps)
    {project : String} {schema : ProjectSchema} (hschema : (run steps).schema project = .ok schema)
    {t : TableSchema} (ht : t ∈ schema.tables) (predicates : List Predicate) (limit : Nat) :
    rowsFetched ((run steps).fetch t predicates limit) =
      .ok (rowsSatisfying predicates limit (rowsInto project t.name steps)) := by
  have hfetch := (reachable_run steps).fetch_eq (hasColonFreeIds_run h.colonFree) hschema ht
    predicates limit
  have hkept : holdsAll predicates =
      (fun row => predicates.all (·.holds row)) ∘ Document.data := rfl
  rw [hfetch, ← documentsOf_run h, rowsSatisfying, List.filter_map, ← List.map_take, hkept]
  rfl

namespace SerializedStore

theorem rowsFetched_run {steps : List StoreStep} (h : IsOrderly steps)
    (hcells : ∀ step ∈ steps, step.IsWithoutDoubles)
    {project : String} (hproject : ':' ∉ project.toList) {t : TableSchema}
    (hid : t.id = tableId project t.name) {predicates : List Predicate} {limit : Nat}
    (hlike : ∀ q ∈ predicates, q.comparison ≠ .like)
    (hdepth : Predicate.depthOf predicates ≤ Predicate.depthLimit)
    (hsettled : ∀ q ∈ predicates, ∀ row ∈ rowsInto project t.name steps, q.IsSettledFor row)
    (hlimit : min limit steps.length ≤ maxLimit) :
    rowsFetched ((run steps).fetch t predicates limit) =
      .ok (rowsSatisfying predicates limit (rowsInto project t.name steps)) := by
  have hrows : ((run steps).rowsOf t.id).map (·.row) = rowsInto project t.name steps :=
    hid ▸ rowsOf_run h.colonFree hproject t.name
  have hmem : ∀ r ∈ (run steps).rowsOf t.id, r.row ∈ rowsInto project t.name steps :=
    fun r hr => hrows ▸ List.mem_map_of_mem hr
  obtain ⟨documents, hfetch, hdata⟩ := (run steps).fetch_eq limit hdepth
    (fun r hr => hcells _ (mem_steps_of_mem_rowsInto (hmem r hr)))
    (fun r hr q hq => Predicate.judge_eq (hlike q hq) (hsettled q hq r.row (hmem r hr)))
  have hall : rowsSatisfying predicates (min limit maxLimit) (rowsInto project t.name steps) =
      rowsSatisfying predicates limit (rowsInto project t.name steps) := by
    -- there are no more rows than steps, so the greatest limit cuts nothing off
    have hlength : ((rowsInto project t.name steps).filter fun row =>
        predicates.all (·.holds row)).length ≤ steps.length :=
      calc _ ≤ (rowsInto project t.name steps).length := List.length_filter_le _ _
        _ ≤ steps.length := List.length_filterMap_le _ _
    rw [rowsSatisfying, rowsSatisfying, List.take_eq_take_iff]
    omega
  rw [hfetch, ← hall, ← hrows]
  exact congrArg Except.ok hdata

/-- **The stores are interchangeable.** After an orderly run without doubles they give the same
answer to a query without LIKE, or the same error, if its predicates are settled on the rows that
were inserted. -/
theorem answer_run {steps : List StoreStep} (h : IsOrderly steps)
    (hcells : ∀ step ∈ steps, step.IsWithoutDoubles)
    {project sql : String} {rowCap : Nat} (hlimit : min rowCap steps.length ≤ maxLimit)
    (hlike : ∀ c ∈ (Query.ofText sql).conditions, c.comparison ≠ .like)
    (hsettled : ∀ schema p, (MemoryStore.run steps).schema project = .ok schema →
      Plan.ofQuery (.ofText sql) schema = .ok p →
        p.IsSettledFor fun table => rowsInto project table steps) :
    (run steps).source.answer rowCap project sql =
      (MemoryStore.run steps).source.answer rowCap project sql := by
  refine RowSource.answer_congr (schema_run h.colonFree project) fun schema hs p hp t ht => ?_
  have hschema : (MemoryStore.run steps).schema project = .ok schema :=
    (schema_run h.colonFree project).symm.trans hs
  have haccepts := Plan.ofQuery_eq_ok_iff.mp hp
  have hplan := hsettled schema p hschema hp
  have hmem := haccepts.mem_schema ht
  obtain ⟨hproject, hid⟩ := MemoryStore.id_of_schema_run h hschema hmem
  have hrows := rowsFetched_run h hcells hproject hid (haccepts.comparison_ne_like hlike t.name)
    (hplan.depth t ht) (hplan.forall_predicatesFor t.name) hlimit
  exact hrows.trans (MemoryStore.rowsFetched_run h hschema hmem _ _).symm

/-- A table that is created again before it has rows, cells that are null or missing, and another
project with a table of the same name. -/
def visitSteps : List StoreStep :=
  [.create "p" "cities" ["id", "name"], .create "p" "visits" ["city", "paid"],
    .create "q" "visits" ["paid"], .create "p" "cities" ["id", "name", "open"],
    .insert "p" "cities" (.ofList [("id", .int 1), ("name", .text "Rome"), ("open", .bool true)]),
    .insert "p" "cities" (.ofList [("id", .int 2), ("name", .text "Oslo")]),
    .insert "p" "visits" (.ofList [("city", .int 2), ("paid", .int 7)]),
    .insert "q" "visits" (.ofList [("paid", .text "much")]),
    .insert "p" "visits" (.ofList [("city", .int 2), ("paid", .null)]),
    .insert "p" "visits" (.ofList [("city", .int 1), ("paid", .int 9007199254740992)])]

theorem isOrderly_visitSteps : IsOrderly visitSteps := by
  have htables := (((IsOrderly.nil.create "p" "cities" ["id", "name"] (by decide) rfl).create
    "p" "visits" ["city", "paid"] (by decide) rfl).create
      "q" "visits" ["paid"] (by decide) rfl).create
        "p" "cities" ["id", "name", "open"] (by decide) rfl
  have hcities := (htables.insert "p" "cities"
    (.ofList [("id", .int 1), ("name", .text "Rome"), ("open", .bool true)])
      ⟨["id", "name"], by decide⟩).insert "p" "cities"
        (.ofList [("id", .int 2), ("name", .text "Oslo")]) ⟨["id", "name"], by decide⟩
  have hvisits := ((hcities.insert "p" "visits" (.ofList [("city", .int 2), ("paid", .int 7)])
    ⟨["city", "paid"], by decide⟩).insert "q" "visits" (.ofList [("paid", .text "much")])
      ⟨["paid"], by decide⟩).insert "p" "visits" (.ofList [("city", .int 2), ("paid", .null)])
        ⟨["city", "paid"], by decide⟩
  exact hvisits.insert "p" "visits" _ ⟨["city", "paid"], by decide⟩

/-- Three conditions on two tables. -/
def paidVisits : String :=
  "SELECT name, paid FROM visits JOIN cities ON city = id " ++
    "WHERE paid >= 7 AND open != false AND name < 'S'"

/-- The tables of `p` after `visitSteps`: the one that was created again has moved to the end. -/
def visitSchema : ProjectSchema :=
  ⟨"p", [⟨"p:visits", "visits", ["city", "paid"]⟩,
    ⟨"p:cities", "cities", ["id", "name", "open"]⟩]⟩

/-- What the conditions of `paidVisits` become. -/
def paidPredicates : List Routed :=
  [⟨"visits", ⟨"paid", .greaterEq, .int 7⟩⟩, ⟨"cities", ⟨"open", .notEq, .bool false⟩⟩,
    ⟨"cities", ⟨"name", .less, .text "S"⟩⟩]

theorem answer_run_paidVisits :
    (run visitSteps).source.answer 10 "p" paidVisits =
      .ok ⟨paidVisits,
        [.ofList [("name", .text "Oslo"), ("paid", .int 7)],
          .ofList [("name", .text "Rome"), ("paid", .int 9007199254740992)]],
        2, 0, ["visits", "cities"]⟩ := by
  have hsettled : ∀ schema p, (MemoryStore.run visitSteps).schema "p" = .ok schema →
      Plan.ofQuery (.ofText paidVisits) schema = .ok p →
        p.IsSettledFor fun table => rowsInto "p" table visitSteps := by
    intro schema p hs hp
    have hschema : (MemoryStore.run visitSteps).schema "p" = .ok visitSchema := by decide +kernel
    obtain rfl := Except.ok.inj (hschema.symm.trans hs)
    have hplan : (Plan.ofQuery (.ofText paidVisits) visitSchema).map
        (fun p => (p.tables, p.routed)) = .ok (visitSchema.tables, paidPredicates) := by
      decide +kernel
    rw [hp] at hplan
    obtain ⟨htables, hrouted⟩ := Prod.mk.inj (Except.ok.inj hplan)
    constructor
    · rw [htables]
      simp only [Plan.predicatesFor, hrouted]
      decide +kernel
    · rw [hrouted]
      decide +kernel
  have hlimit : min 10 visitSteps.length ≤ maxLimit :=
    (Nat.min_le_left _ _).trans (by decide)
  rw [answer_run isOrderly_visitSteps (by decide +kernel) hlimit (by decide +kernel) hsettled]
  decide +kernel

/-- A condition on a column with quotes leaves out the row that satisfies it, if the row is stored
as text. -/
theorem answer_run_quotedColumn :
    let steps : List StoreStep :=
      [.create "p" "t" ["\"x\""], .insert "p" "t" (.ofList [("\"x\"", .int 1)])]
    let sql := "SELECT \"x\" FROM t WHERE \"x\" = 1"
    (MemoryStore.run steps).source.answer 10 "p" sql =
        .ok ⟨sql, [.ofList [("\"x\"", .int 1)]], 1, 0, ["t"]⟩ ∧
      (run steps).source.answer 10 "p" sql = .ok ⟨sql, [], 0, 0, ["t"]⟩ := by
  decide +kernel

end SerializedStore
end DocumentSql
