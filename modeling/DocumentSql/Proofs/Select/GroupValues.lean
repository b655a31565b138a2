/-
# What aggregates are taken of

Rows that are aggregated together are all of them without GROUP BY, and the rows
of one group with it, in their order (`groupsOf`). An aggregate that does not
count rows is made of the cells that these rows have in its column, whatever
else they hold; under its name a row of the result shows it, unless a later
aggregate has the same name (`aggregateRows_values`).

Key definitions: `groupsOf`, `columnCells`, `OnlyIntegers`.
Key theorem: `aggregateRows_values`.
-/
import DocumentSql.Proofs.Select.GroupColumns

namespace DocumentSql

variable {scope : Scope} {groupBy : List String} {rows : List Row}

/-- The rows that are aggregated together, for each row of the result. -/
def groupsOf (scope : Scope) (groupBy : List String) (rows : List Row) : List (List Row) :=
  if groupBy = [] then [rows]
  else (groupKeys scope groupBy rows).map (groupMembers (groupKey scope groupBy) rows)

/-- The values that rows have in a column, null for those that have none. -/
def columnCells (scope : Scope) (column : String) (rows : List Row) : List Scalar :=
  rows.map fun row => groupCell scope row column

/-- Every value with a numeric reading is an integer. -/
def OnlyIntegers (vs : List Scalar) : Prop := ∀ v ∈ vs, v.number? ≠ none → ∃ i, v = .int i

theorem onlyIntegers_concat {vs : List Scalar} {v : Scalar} :
    OnlyIntegers (vs ++ [v]) ↔ OnlyIntegers vs ∧ (v.number? ≠ none → ∃ i, v = .int i) := by
  unfold OnlyIntegers
  rw [List.forall_mem_append, List.forall_mem_singleton]

theorem ne_nil_of_mem_groupsOf (hrows : rows ≠ []) {group : List Row}
    (h : group ∈ groupsOf scope groupBy rows) : group ≠ [] := by
  unfold groupsOf at h
  split at h
  · rw [List.mem_singleton.mp h]
    exact hrows
  · obtain ⟨k, hk, rfl⟩ := List.mem_map.mp h
    obtain ⟨row, hrow, hkey⟩ := mem_groupKeys.mp hk
    exact List.ne_nil_of_mem (mem_groupMembers.mpr ⟨hrow, hkey⟩)

theorem Aggregate.value_of_ne_nil {a : Aggregate} (ha : a.countsRows = false) (hrows : rows ≠ []) :
    a.value scope rows = ofCells a.function (columnCells scope a.column rows) := by
  rw [value, if_neg (by simpa using hrows), ha, if_neg Bool.false_ne_true]
  rfl

/-- The last aggregate of a name is shown under it. -/
theorem get?_aggregateGroup_of_last {a : Aggregate} (before : List Aggregate)
    {behind : List Aggregate} (hlast : ∀ b ∈ behind, b.outputName ≠ a.outputName) :
    (aggregateGroup scope (before ++ a :: behind) rows).get? a.outputName =
      some (a.value scope rows) := by
  refine get?_aggregateGroup_append before ⟨a, List.mem_cons_self, rfl⟩ ?_
  rw [List.forall_mem_cons]
  exact ⟨fun _ => rfl, fun b hb hname => absurd hname (hlast b hb)⟩

/-- The rows of the result show an aggregate of the cells of each group. -/
theorem aggregateRows_values {a : Aggregate} (ha : a.countsRows = false) (before : List Aggregate)
    {behind : List Aggregate} (hlast : ∀ b ∈ behind, b.outputName ≠ a.outputName)
    (hrows : rows ≠ []) :
    List.Forall₂ (fun group out => out.get? a.outputName =
        some (Aggregate.ofCells a.function (columnCells scope a.column group)))
      (groupsOf scope groupBy rows)
      (aggregateRows scope (before ++ a :: behind) groupBy rows) := by
  have hvalue : ∀ group ∈ groupsOf scope groupBy rows,
      (aggregateGroup scope (before ++ a :: behind) group).get? a.outputName =
        some (Aggregate.ofCells a.function (columnCells scope a.column group)) := by
    intro group hgroup
    -- a group without rows would show the value for nothing instead
    have hne : group ≠ [] := ne_nil_of_mem_groupsOf hrows hgroup
    rw [get?_aggregateGroup_of_last before hlast, Aggregate.value_of_ne_nil ha hne]
  by_cases hgroup : groupBy = []
  · subst hgroup
    rw [groupsOf, if_pos rfl] at hvalue ⊢
    rw [aggregateRows_nil]
    exact .cons (hvalue rows List.mem_cons_self) .nil
  · rw [groupsOf, if_neg hgroup] at hvalue ⊢
    rw [aggregateRows_eq hgroup (.inl hrows), List.forall₂_map_left_iff,
      List.forall₂_map_right_iff, List.forall₂_same]
    intro k hk
    exact get?_groupRow (hvalue _ (List.mem_map_of_mem hk))

end DocumentSql
