/-
# What the checks of a query establish

`Plan.ofQuery` runs its checks one after the other. `Plan.Accepts` lists them as
facts about a query and its plan, and `ofQuery_eq_ok_iff` says that the checks
pass exactly when these facts hold. From there no proof opens `Plan.ofQuery`.

The facts that matter behind the checks: the joined tables are new and differ
from each other (`Accepts.joined_nodup`), every table behind the base table is
joined (`Accepts.mem_joined`), the schemas of the plan are those of the query's
tables, in the same order (`Accepts.names_tables`), and a WHERE column is routed
to a table of the query that lists it (`routeColumn_eq_ok`).

Key definition: `Plan.Accepts`.
Key theorems: `Plan.ofQuery_eq_ok_iff`, `checkJoins_eq_ok_iff`,
`findTables_eq_ok`, `routeColumn_eq_ok`.
-/
import DocumentSql.Select.Plan
import DocumentSql.Proofs.Lists
import DocumentSql.Proofs.Select.Column
import Mathlib.Data.List.Nodup

namespace DocumentSql

/-! ### The single checks -/

/-- The joins pass if each is an inner join with `=` on a table that is new. -/
theorem checkJoins_eq_ok_iff : ∀ (joins : List Join) (earlier : List String),
    checkJoins earlier joins = .ok () ↔
      (∀ j ∈ joins, j.table ∉ earlier) ∧ (joins.map (·.table)).Nodup ∧
        ∀ j ∈ joins, j.kind = .inner ∧ j.on.operator = "="
  | [], earlier => by simp [checkJoins]
  | j :: joins, earlier => by
    simp only [checkJoins, List.contains_iff_mem]
    split
    · rename_i h
      simp only [reduceCtorEq, false_iff, not_and]
      exact fun hn => absurd h (hn j List.mem_cons_self)
    · rename_i hnew
      split
      · rename_i h
        simp only [reduceCtorEq, false_iff, not_and]
        exact fun _ _ hk => h (hk j List.mem_cons_self).1
      · rename_i hkind
        split
        · rename_i h
          simp only [reduceCtorEq, false_iff, not_and]
          exact fun _ _ hk => h (hk j List.mem_cons_self).2
        · rename_i hop
          rw [checkJoins_eq_ok_iff joins]
          simp only [List.forall_mem_cons, List.map_cons, List.nodup_cons, List.mem_append,
            List.mem_singleton, not_or, List.mem_map, not_exists, not_and]
          simp only [ne_eq, not_not] at hkind hop
          constructor
          · rintro ⟨h1, h2, h3⟩
            exact ⟨⟨hnew, fun k hk => (h1 k hk).1⟩, ⟨fun k hk => (h1 k hk).2, h2⟩, ⟨hkind, hop⟩, h3⟩
          · rintro ⟨⟨-, h1⟩, ⟨h2, h3⟩, -, h4⟩
            exact ⟨fun k hk => ⟨h1 k hk, h2 k hk⟩, h3, h4⟩

/-- The conditions pass if none is IN and none is joined to the next by OR. -/
theorem checkConditions_eq_ok_iff (conditions : List Condition) :
    checkConditions conditions = .ok () ↔
      ∀ c ∈ conditions, c.comparison ≠ .inList ∧ c.connector ≠ some .or := by
  induction conditions with
  | nil => simp [checkConditions]
  | cons c rest ih =>
    by_cases h1 : c.comparison = .inList
    · simp [checkConditions, h1]
    · by_cases h2 : c.connector = some .or
      · simp [checkConditions, h1, h2]
      · simp [checkConditions, h1, h2, ih]

theorem crossJoined?_eq_none_iff (tables : List String) (joins : List Join) :
    crossJoined? tables joins = none ↔ ∀ t ∈ tables.tail, t ∈ joins.map (·.table) := by
  simp [crossJoined?, List.find?_eq_none]

theorem findTables_eq_ok {schema : ProjectSchema} : ∀ {names : List String}
    {tables : List TableSchema}, findTables schema names = .ok tables →
    tables.map (·.name) = names ∧ ∀ t ∈ tables, schema.table? t.name = some t
  | [], tables, h => by
    obtain rfl : [] = tables := Except.ok.inj h
    exact ⟨rfl, fun t ht => by cases ht⟩
  | name :: names, tables, h => by
    unfold findTables at h
    split at h
    · cases h
    · rename_i t ht
      cases hr : findTables schema names with
      | error e => rw [hr] at h; cases h
      | ok rest =>
        rw [hr] at h
        obtain rfl : t :: rest = tables := Except.ok.inj h
        obtain ⟨h1, h2⟩ := findTables_eq_ok hr
        have hname : t.name = name := by simpa using List.find?_some ht
        refine ⟨by rw [List.map_cons, h1, hname], ?_⟩
        rw [List.forall_mem_cons]
        exact ⟨hname ▸ ht, h2⟩

theorem mem_of_table? {schema : ProjectSchema} {name : String} {t : TableSchema}
    (h : schema.table? name = some t) : t ∈ schema.tables ∧ t.name = name :=
  ⟨List.mem_of_find?_eq_some h, by simpa using List.find?_some h⟩

/-- Where a WHERE column is routed: to the table that its table part names, or else to the first
table that lists it. -/
theorem routeColumn_eq_ok {scope : Scope} {tables : List TableSchema} {text table column : String}
    (h : routeColumn scope tables text = .ok (table, column)) :
    ∃ t ∈ tables, t.name = table ∧ column ∈ t.columns ∧
      ((∃ name, Column.split text = (some name, column) ∧ scope.tableOf name = table) ∨
        (Column.split text = (none, column) ∧ tables.find? (·.hasColumn column) = some t)) := by
  unfold routeColumn at h
  split at h
  · rename_i name bare hs
    split at h
    · cases h
    · rename_i t ht
      split at h
      · rename_i hc
        obtain ⟨rfl, rfl⟩ := Prod.mk.inj (Except.ok.inj h)
        have hname : t.name = scope.tableOf name := by simpa using List.find?_some ht
        exact ⟨t, List.mem_of_find?_eq_some ht, rfl, by simpa [TableSchema.hasColumn] using hc,
          .inl ⟨name, hs, hname.symm⟩⟩
      · cases h
  · rename_i bare hs
    split at h
    · cases h
    · rename_i t ht
      obtain ⟨rfl, rfl⟩ := Prod.mk.inj (Except.ok.inj h)
      have hc := List.find?_some ht
      exact ⟨t, List.mem_of_find?_eq_some ht, rfl, by simpa [TableSchema.hasColumn] using hc,
        .inr ⟨hs, ht⟩⟩

/-- A condition that is routed, as the predicate it becomes. -/
def routeCondition (scope : Scope) (tables : List TableSchema) (c : Condition) :
    Except QueryError Routed :=
  (routeColumn scope tables c.column).map fun r => ⟨r.1, ⟨r.2, c.comparison, c.value⟩⟩

theorem routeCondition_eq_ok {scope : Scope} {tables : List TableSchema} {c : Condition}
    {r : Routed} (h : routeCondition scope tables c = .ok r) :
    routeColumn scope tables c.column = .ok (r.table, r.predicate.column) ∧
      r.predicate = ⟨r.predicate.column, c.comparison, c.value⟩ := by
  unfold routeCondition at h
  cases hc : routeColumn scope tables c.column with
  | error e => rw [hc] at h; cases h
  | ok found =>
    rw [hc] at h
    obtain rfl := Except.ok.inj h
    exact ⟨rfl, rfl⟩

theorem routeConditions_eq_ok {scope : Scope} {tables : List TableSchema} :
    ∀ {conditions : List Condition} {routed : List Routed},
      routeConditions scope tables conditions = .ok routed →
      List.Forall₂ (fun c r => routeCondition scope tables c = .ok r) conditions routed
  | [], routed, h => by
    obtain rfl : [] = routed := Except.ok.inj h
    exact .nil
  | c :: conditions, routed, h => by
    unfold routeConditions at h
    split at h
    · cases h
    · rename_i table column hc
      cases hr : routeConditions scope tables conditions with
      | error e => rw [hr] at h; cases h
      | ok rest =>
        rw [hr] at h
        obtain rfl := Except.ok.inj h
        exact .cons (by rw [routeCondition, hc]; rfl) (routeConditions_eq_ok hr)

/-! ### All checks together -/

namespace Plan

/-- `p` is the plan of `q` over `schema`: every check passes, and `p` holds what they find. -/
structure Accepts (q : Query) (schema : ProjectSchema) (p : Plan) : Prop where
  valid : q.isValid = true
  kind : q.kind = .select
  joins : checkJoins q.tables.head?.toList q.joins = .ok ()
  conditions : checkConditions q.conditions = .ok ()
  nonempty : q.tables ≠ []
  closed : crossJoined? q.tables q.joins = none
  scope : p.scope = ⟨q.tables, q.aliases⟩
  tables : findTables schema q.tables = .ok p.tables
  routed : routeConditions p.scope p.tables q.conditions = .ok p.routed

theorem ofQuery_eq_ok_iff {q : Query} {schema : ProjectSchema} {p : Plan} :
    ofQuery q schema = .ok p ↔ Accepts q schema p := by
  constructor
  · intro h
    unfold ofQuery at h
    simp only [bind, Except.bind, pure, Except.pure, throw, throwThe, MonadExceptOf.throw] at h
    -- every check that fails gives an error, so each `split` leaves the case where it passes
    split at h
    · cases h
    rename_i hvalid
    split at h
    · cases h
    rename_i hkind
    split at h
    · cases h
    rename_i hjoins
    split at h
    · cases h
    rename_i hconditions
    split at h
    · cases h
    rename_i hnonempty
    split at h
    · cases h
    rename_i hclosed
    split at h
    · cases h
    rename_i tables htables
    split at h
    · cases h
    rename_i routed hrouted
    obtain rfl := Except.ok.inj h
    exact {
      valid := by simpa using hvalid
      kind := by simpa using hkind
      joins := hjoins
      conditions := hconditions
      nonempty := by simpa using hnonempty
      closed := Option.eq_none_iff_forall_ne_some.mpr fun t ht => hclosed t ht
      scope := rfl
      tables := htables
      routed := hrouted }
  · intro h
    have hrouted := h.scope ▸ h.routed
    have hp : p = ⟨⟨q.tables, q.aliases⟩, p.tables, p.routed⟩ := by rw [← h.scope]
    unfold ofQuery
    simp only [h.valid, h.kind, h.joins, h.conditions, h.nonempty, h.closed, h.tables, hrouted,
      bind, Except.bind, pure, Except.pure, List.isEmpty_iff, Bool.not_true, Bool.false_eq_true,
      ne_eq, not_true, if_false]
    rw [← hp]

namespace Accepts

variable {q : Query} {schema : ProjectSchema} {p : Plan}

theorem base_eq (h : Accepts q schema p) : p.scope.base = q.tables.head h.nonempty := by
  rw [h.scope]
  simp [Scope.base, List.head?_eq_some_head h.nonempty]

/-- The joined tables differ from each other. -/
theorem joined_nodup (h : Accepts q schema p) : (q.joins.map (·.table)).Nodup :=
  ((checkJoins_eq_ok_iff _ _).mp h.joins).2.1

/-- The base table is not joined again. -/
theorem base_notMem_joined (h : Accepts q schema p) :
    p.scope.base ∉ q.joins.map (·.table) := by
  have hnew := ((checkJoins_eq_ok_iff _ _).mp h.joins).1
  rw [h.base_eq, List.mem_map]
  rintro ⟨j, hj, he⟩
  exact hnew j hj (by simp [List.head?_eq_some_head h.nonempty, he])

/-- Every table of the query is the base table or joined. -/
theorem mem_joined (h : Accepts q schema p) {table : String} (ht : table ∈ q.tables)
    (hne : table ≠ p.scope.base) : table ∈ q.joins.map (·.table) := by
  refine (crossJoined?_eq_none_iff _ _).mp h.closed table ?_
  rw [h.base_eq] at hne
  rw [← List.cons_head_tail h.nonempty] at ht
  exact (List.mem_cons.mp ht).resolve_left hne

/-- The schemas of the plan are those of the tables of the query. -/
theorem names_tables (h : Accepts q schema p) : p.tables.map (·.name) = q.tables :=
  (findTables_eq_ok h.tables).1

theorem table?_of_mem (h : Accepts q schema p) {t : TableSchema} (ht : t ∈ p.tables) :
    schema.table? t.name = some t := (findTables_eq_ok h.tables).2 t ht

theorem mem_schema (h : Accepts q schema p) {t : TableSchema} (ht : t ∈ p.tables) :
    t ∈ schema.tables := (mem_of_table? (h.table?_of_mem ht)).1

/-- A schema of the plan is found under its name. -/
theorem plan_table? (h : Accepts q schema p) {t : TableSchema} (ht : t ∈ p.tables) :
    p.table? t.name = some t := by
  obtain ⟨u, hu⟩ : ∃ u, p.table? t.name = some u := by
    cases hu : p.table? t.name with
    | some u => exact ⟨u, rfl⟩
    | none =>
      have hne := List.find?_eq_none.mp hu t ht
      simp at hne
  have hmem : u ∈ p.tables := List.mem_of_find?_eq_some hu
  have hname : u.name = t.name := by simpa using List.find?_some hu
  have heq := h.table?_of_mem hmem
  rw [hname, h.table?_of_mem ht] at heq
  rw [hu, ← heq]

end Accepts
end Plan
end DocumentSql
