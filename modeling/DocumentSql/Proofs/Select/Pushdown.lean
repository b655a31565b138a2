/-
# Conditions may be tested before the joins

The conditions of a query are tested on the documents of single tables, before
these are joined. A merged row shows the cell that was tested: a column of the
base table under its bare name, one of a joined table behind that table's name,
null where the document has none. So a tuple's documents pass their tables'
predicates exactly when its merged row satisfies all conditions
(`all_holdsAll_iff`), and the rows that are joined are those that joining
everything first would leave (`joinedRows_selected`), as long as no table has
more documents than are fetched.

Key definitions: `Plan.satisfies`, `Plan.joinedThenFiltered`.
Key theorems: `Plan.Accepts.all_holdsAll_iff`, `Plan.Accepts.joinedRows_selected`,
`Plan.joinedRows_fetched`.
-/
import DocumentSql.Proofs.Select.Fetched

namespace DocumentSql
namespace Plan

/-- Whether a merged row satisfies a condition, tested at the key of the column it is routed to. -/
def satisfies (p : Plan) (row : Row) (c : Condition) : Bool :=
  match routeColumn p.scope p.tables c.column with
  | .ok (table, column) => Predicate.holds ⟨p.scope.keyOf table column, c.comparison, c.value⟩ row
  | .error _ => false

/-- Whether a merged row satisfies a routed predicate. -/
def satisfiesRouted (p : Plan) (row : Row) (r : Routed) : Bool :=
  r.predicate.holdsFor (row.cell (p.scope.keyOf r.table r.predicate.column))

variable {p : Plan}

theorem satisfies_eq {c : Condition} {r : Routed}
    (h : routeCondition p.scope p.tables c = .ok r) (row : Row) :
    p.satisfies row c = p.satisfiesRouted row r := by
  obtain ⟨hroute, hr⟩ := routeCondition_eq_ok h
  rw [satisfiesRouted, hr]
  simp only [satisfies, hroute]
  rfl

theorem all_satisfies_eq {conditions : List Condition} {routed : List Routed}
    (h : List.Forall₂ (fun c r => routeCondition p.scope p.tables c = .ok r) conditions routed)
    (row : Row) :
    conditions.all (p.satisfies row) = routed.all (p.satisfiesRouted row) := by
  induction h with
  | nil => rfl
  | cons hc _ ih => rw [List.all_cons, List.all_cons, satisfies_eq hc, ih]

/-- A document passes the predicates of a table if it satisfies each that is routed there. -/
theorem holdsAll_predicatesFor_iff (table : String) (d : Document) :
    holdsAll (p.predicatesFor table) d = true ↔
      ∀ r ∈ p.routed, r.table = table → r.predicate.holds d.data = true := by
  simp only [holdsAll, predicatesFor, List.all_eq_true, List.forall_mem_map, List.mem_filter,
    beq_iff_eq, and_imp]

namespace Accepts

variable {schema : ProjectSchema} {q : Query}

theorem listed_of_mem_routed (h : Accepts q schema p) : ∀ r ∈ p.routed,
    r.table ∈ q.tables ∧ r.predicate.column ∈ p.columnsOf r.table := by
  intro r hr
  obtain ⟨c, -, hc⟩ := exists_of_mem_forall₂ (routeConditions_eq_ok h.routed) hr
  obtain ⟨t, ht, hname, hcol, -⟩ := routeColumn_eq_ok (routeCondition_eq_ok hc).1
  rw [← hname, h.columnsOf_eq ht]
  exact ⟨h.names_tables ▸ List.mem_map_of_mem ht, hcol⟩

variable {documents : String → List Document}

/-- The documents of a tuple pass the predicates of their tables exactly when the merged row
satisfies all conditions. -/
theorem all_holdsAll_iff (h : Accepts q schema p) (hd : schema.IsDotFree)
    (hkeys : ∀ d ∈ documents p.scope.base, ∀ key ∈ d.data.keys, Column.IsDotFree key)
    {tuple : Tuple}
    (ht : tuple ∈ tuples (p.sources (withDocuments q.tables documents) q.joins)) :
    (∀ e ∈ tuple, holdsAll (p.predicatesFor e.1) e.2 = true) ↔
      q.conditions.all (p.satisfies (p.mergedRow tuple)) = true := by
  rw [all_satisfies_eq (routeConditions_eq_ok h.routed), List.all_eq_true]
  obtain ⟨d, rest, rfl, -⟩ := exists_eq_cons ht
  have hapart := h.isApart hd hkeys ht
  -- a routed predicate reads the same cell in the document and in the merged row
  have hcell : ∀ r ∈ p.routed, ∀ e, (r.table, e) ∈ (p.scope.base, d) :: rest →
      p.satisfiesRouted (p.mergedRow ((p.scope.base, d) :: rest)) r =
        r.predicate.holds e.data := by
    intro r hr e he
    have hc := (h.listed_of_mem_routed r hr).2
    rw [satisfiesRouted, cell_mergedRow_keyOf hapart he hc (h.isDotFree_column hd hc)]
    rfl
  constructor
  · intro hall r hr
    obtain ⟨e, he⟩ := h.exists_document ht (h.listed_of_mem_routed r hr).1
    rw [hcell r hr e he]
    exact (holdsAll_predicatesFor_iff _ _).mp (hall _ he) r hr rfl
  · intro hall e he
    rw [holdsAll_predicatesFor_iff]
    rintro r hr htable
    rw [← hcell r hr e.2 (htable ▸ he)]
    exact hall r hr

/-- Joining the documents that pass the predicates gives the joined rows that satisfy the
conditions. -/
theorem joinedRows_selected (h : Accepts q schema p) (hd : schema.IsDotFree)
    (hkeys : ∀ d ∈ documents p.scope.base, ∀ key ∈ d.data.keys, Column.IsDotFree key) :
    p.joinedRows (withDocuments q.tables fun t =>
        (documents t).filter (holdsAll (p.predicatesFor t))) q.joins =
      (p.joinedRows (withDocuments q.tables documents) q.joins).filter fun row =>
        q.conditions.all (p.satisfies row) := by
  have hsources : p.sources (withDocuments q.tables fun t =>
        (documents t).filter (holdsAll (p.predicatesFor t))) q.joins =
      (p.sources (withDocuments q.tables documents) q.joins).map fun source =>
        (source.1, source.2.filter (holdsAll (p.predicatesFor source.1))) := by
    have hone : ∀ t, documentsOf (withDocuments q.tables fun t =>
          (documents t).filter (holdsAll (p.predicatesFor t))) t =
        (documentsOf (withDocuments q.tables documents) t).filter
          (holdsAll (p.predicatesFor t)) := by
      intro t
      rw [documentsOf_withDocuments, documentsOf_withDocuments]
      split <;> rfl
    simp only [sources, hone, List.map_cons, List.map_map]
    rfl
  rw [joinedRows_eq, joinedRows_eq, hsources,
    tuples_filter fun t d => holdsAll (p.predicatesFor t) d, List.filter_map]
  refine congrArg (List.map p.mergedRow) ?_
  rw [List.filter_filter, List.filter_filter]
  refine List.filter_congr fun tuple ht => ?_
  rw [Bool.and_comm]
  refine congrArg (· && _) ?_
  rw [Bool.eq_iff_iff, List.all_eq_true]
  exact h.all_holdsAll_iff hd hkeys ht

end Accepts

/-- The rows of the whole tables, joined before any condition is tested, that satisfy all
conditions. -/
def joinedThenFiltered (p : Plan) (q : Query) (s : MemoryStore) (project : String) : List Row :=
  (p.joinedRows (withDocuments q.tables (s.documentsOf project)) q.joins).filter fun row =>
    q.conditions.all (p.satisfies row)

/-- The rows of an accepted query that are grouped or shown are those that joining the whole tables
and then testing all conditions would give. -/
theorem joinedRows_fetched {s : MemoryStore} {project : String} {schema : ProjectSchema}
    {q : Query} {p : Plan} {rowCap : Nat} (hs : s.Reachable) (hids : s.HasColonFreeIds)
    (hschema : s.schema project = .ok schema) (hp : ofQuery q schema = .ok p)
    (hd : schema.IsDotFree)
    (hkeys : ∀ d ∈ s.documentsOf project p.scope.base, ∀ key ∈ d.data.keys,
      Column.IsDotFree key)
    (hcap : ∀ t ∈ q.tables, (s.documentsOf project t).length ≤ rowCap) :
    ∃ fetched, p.fetchTables s.fetch rowCap p.tables = .ok fetched ∧
      p.joinedRows fetched q.joins = p.joinedThenFiltered q s project ∧
      execute q schema s.fetch rowCap =
        .ok (p.resultRows q (p.joinedThenFiltered q s project)) := by
  have h := ofQuery_eq_ok_iff.mp hp
  have hall : withDocuments q.tables (s.selected project p rowCap) =
      withDocuments q.tables fun t =>
        (s.documentsOf project t).filter (holdsAll (p.predicatesFor t)) := by
    refine List.map_congr_left fun t ht => ?_
    rw [MemoryStore.selected, List.take_of_length_le]
    exact Nat.le_trans (List.length_filter_le _ _) (hcap t ht)
  have hrows : p.joinedRows (withDocuments q.tables (s.selected project p rowCap)) q.joins =
      p.joinedThenFiltered q s project := by
    rw [hall, h.joinedRows_selected hd hkeys, joinedThenFiltered]
  refine ⟨_, h.fetchTables_eq hs hids hschema rowCap, hrows, ?_⟩
  rw [h.execute_eq hs hids hschema, hrows]

/-- The orders of ink by users that are not called Bob. -/
def inkOrders : String :=
  "SELECT * FROM users u JOIN orders ON u.id = user_id WHERE name != 'Bob' AND orders.name = 'ink'"

theorem joinedRows_fetched_inkOrders :
    (∃ fetched,
      (Sample.planOf inkOrders).fetchTables Sample.shop.fetch 2 (Sample.planOf inkOrders).tables =
        .ok fetched ∧
      (Sample.planOf inkOrders).joinedRows fetched (Query.ofText inkOrders).joins =
        (Sample.planOf inkOrders).joinedThenFiltered (.ofText inkOrders) Sample.shop "shop" ∧
      execute (.ofText inkOrders) Sample.schema Sample.shop.fetch 2 =
        .ok ((Sample.planOf inkOrders).resultRows (.ofText inkOrders)
          ((Sample.planOf inkOrders).joinedThenFiltered (.ofText inkOrders) Sample.shop "shop"))) ∧
    (Sample.planOf inkOrders).joinedThenFiltered (.ofText inkOrders) Sample.shop "shop" =
      [.ofList [("id", .int 2), ("user_id", .int 9), ("orders.id", .int 8),
        ("orders.user_id", .int 2), ("orders.name", .text "ink"), ("orders.*", .int 5)]] ∧
    execute (.ofText inkOrders) Sample.schema Sample.shop.fetch 2 =
      .ok [.ofList [("id", .int 2), ("name", .null), ("orders.id", .int 8),
        ("orders.user_id", .int 2), ("orders.name", .text "ink"), ("orders.*", .int 5)]] :=
  ⟨joinedRows_fetched Sample.shop_reachable Sample.shop_hasColonFreeIds Sample.shop_schema
    (by decide +kernel) Sample.schema_isDotFree (by decide +kernel) (by decide +kernel),
    by decide +kernel, by decide +kernel⟩

end Plan
end DocumentSql
