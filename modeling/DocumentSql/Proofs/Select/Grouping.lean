/-
# Grouping is a partition

The rows of a grouped query fall into groups by the text of their group
columns. The groups come in the order in which their keys first occur, every
row is in the group of its key and in no other, and the row of a group is what
its rows give when they are aggregated alone, behind the group columns of the
first of them (`aggregateRows_grouped`).

Key definitions: `groupKeys`, `groupMembers`, `IsGroupRow`.
Key theorems: `entries_groupRows`, `flatMap_groupMembers_perm`,
`aggregateRows_grouped`.
-/
import DocumentSql.Select.Grouping
import DocumentSql.Proofs.OrderedMap
import DocumentSql.Proofs.Sql.Distinct
import Mathlib.Algebra.BigOperators.Group.List.Basic
import Mathlib.Algebra.Order.Ring.Int
import Mathlib.Data.List.Induction

namespace DocumentSql

/-! ### The groups -/

section Partition

variable {key : Row → String}

/-- The rows with a key, in the order of the input. -/
def groupMembers (key : Row → String) (rows : List Row) (k : String) : List Row :=
  rows.filter fun row => key row = k

theorem mem_groupMembers {rows : List Row} {row : Row} {k : String} :
    row ∈ groupMembers key rows k ↔ row ∈ rows ∧ key row = k := by
  simp [groupMembers]

/-- One more row comes to the end of the group of its key. -/
theorem groupMembers_concat (rows : List Row) (row : Row) :
    groupMembers key (rows ++ [row]) =
      Function.update (groupMembers key rows) (key row)
        (groupMembers key rows (key row) ++ [row]) := by
  funext k
  by_cases hk : k = key row
  · subst hk
    simp [groupMembers, List.filter_append]
  · rw [Function.update_of_ne hk]
    simp [groupMembers, List.filter_append, Ne.symm hk]

/-- The groups are the keys in the order of their first occurrence, each with its rows. -/
theorem entries_groupRows (key : Row → String) (rows : List Row) :
    (groupRows key rows).entries =
      (Sql.distinct (rows.map key)).map fun k => (k, groupMembers key rows k) := by
  induction rows using List.reverseRecOn with
  | nil => rfl
  | append_singleton rows row ih =>
    have hstep : groupRows key (rows ++ [row]) = (groupRows key rows).insert (key row)
        (((groupRows key rows).get? (key row)).getD [] ++ [row]) := by
      rw [groupRows, List.foldl_concat]
      rfl
    -- a key without a group so far has no rows so far
    have hsofar : ((groupRows key rows).get? (key row)).getD [] =
        groupMembers key rows (key row) := by
      rw [OrderedMap.get?, ih, Entries.find?_map_pair]
      split
      · rfl
      · rename_i hnew
        rw [Sql.mem_distinct] at hnew
        refine (List.filter_eq_nil_iff.mpr ?_).symm
        intro other hother heq
        rw [decide_eq_true_iff] at heq
        exact hnew (heq ▸ List.mem_map_of_mem hother)
    calc (groupRows key (rows ++ [row])).entries
        = Entries.put (key row) (groupMembers key rows (key row) ++ [row])
            ((Sql.distinct (rows.map key)).map fun k => (k, groupMembers key rows k)) := by
          rw [hstep, hsofar, OrderedMap.entries_insert, ih]
      _ = (if key row ∈ Sql.distinct (rows.map key) then Sql.distinct (rows.map key)
            else Sql.distinct (rows.map key) ++ [key row]).map
              fun k => (k, groupMembers key (rows ++ [row]) k) := by
          rw [Entries.put_map_pair _ _ _ (Sql.nodup_distinct _), groupMembers_concat]
      _ = _ := by
          rw [List.map_append, List.map_singleton, Sql.distinct_concat]
          simp only [Sql.mem_distinct]

/-- Groups of different keys that take up all rows are a rearrangement of the rows. -/
theorem flatMap_groupMembers_perm : ∀ {ks : List String} {rows : List Row}, ks.Nodup →
    (∀ row ∈ rows, key row ∈ ks) → (ks.flatMap (groupMembers key rows)).Perm rows
  | [], rows, _, hkeys => by
    have hnone : rows = [] := List.eq_nil_iff_forall_not_mem.mpr fun row h => nomatch hkeys row h
    rw [hnone, List.flatMap_nil]
  | k :: ks, rows, hn, hkeys => by
    obtain ⟨hk, hn⟩ := List.nodup_cons.mp hn
    let others := rows.filter fun row => !decide (key row = k)
    have hothers : ∀ row ∈ others, key row ∈ ks := by
      intro row hrow
      obtain ⟨hrow, hne⟩ := List.mem_filter.mp hrow
      have hne : key row ≠ k := by simpa using hne
      exact (List.mem_cons.mp (hkeys row hrow)).resolve_left hne
    have hsame : ∀ k' ∈ ks, groupMembers key rows k' = groupMembers key others k' := by
      intro k' hk'
      have hne : k' ≠ k := fun he => hk (he ▸ hk')
      rw [groupMembers, groupMembers, List.filter_filter]
      refine List.filter_congr fun row _ => ?_
      by_cases h : key row = k' <;> simp [h, hne]
    calc (k :: ks).flatMap (groupMembers key rows)
        = groupMembers key rows k ++ ks.flatMap (groupMembers key rows) := List.flatMap_cons
      _ = groupMembers key rows k ++ ks.flatMap (groupMembers key others) := by
          rw [List.flatMap_congr hsame]
      _ |>.Perm (groupMembers key rows k ++ others) :=
          (flatMap_groupMembers_perm hn hothers).append_left _
      _ |>.Perm rows := List.filter_append_perm _ rows

end Partition

/-! ### The rows of the groups -/

section Groups

variable {scope : Scope} {aggregates : List Aggregate} {groupBy : List String} {rows : List Row}

/-- The keys of the groups, in the order of their first rows. -/
def groupKeys (scope : Scope) (groupBy : List String) (rows : List Row) : List String :=
  Sql.distinct (rows.map (groupKey scope groupBy))

theorem mem_groupKeys {k : String} :
    k ∈ groupKeys scope groupBy rows ↔ ∃ row ∈ rows, groupKey scope groupBy row = k := by
  rw [groupKeys, Sql.mem_distinct, List.mem_map]

/-- The group columns of a row, each under its bare name and as written. -/
def groupCells (scope : Scope) (groupBy : List String) (row : Row) : Row :=
  OrderedMap.ofList <| groupBy.flatMap fun column =>
    let v := (scope.lookupLenient? row column).getD .null
    [(Column.bareName column, v), (column, v)]

/-- The row of the group with key `k`: the group columns of the first row with this key, and behind
them what the rows with this key give when they are aggregated alone. -/
def IsGroupRow (scope : Scope) (aggregates : List Aggregate) (groupBy : List String)
    (rows : List Row) (k : String) (out : Row) : Prop :=
  ∃ first single, rows.find? (fun row => groupKey scope groupBy row = k) = some first ∧
    aggregateRows scope aggregates [] (groupMembers (groupKey scope groupBy) rows k) = [single] ∧
    out = (groupCells scope groupBy first).insertAll single.entries

/-- Rows that are aggregated without GROUP BY give one row. -/
theorem aggregateRows_nil (scope : Scope) (aggregates : List Aggregate) (rows : List Row) :
    aggregateRows scope aggregates [] rows = [aggregateGroup scope aggregates rows] := rfl

theorem aggregateRows_eq (hgroup : groupBy ≠ []) (hrows : rows ≠ [] ∨ aggregates = []) :
    aggregateRows scope aggregates groupBy rows =
      (groupKeys scope groupBy rows).map fun k =>
        groupRow scope aggregates groupBy (groupMembers (groupKey scope groupBy) rows k) := by
  have hgrouped : (groupBy.isEmpty || (rows.isEmpty && !aggregates.isEmpty)) = false := by
    rcases hrows with h | h <;> simp [hgroup, h]
  rw [aggregateRows, hgrouped, if_neg Bool.false_ne_true, OrderedMap.values, entries_groupRows,
    List.map_map, List.map_map]
  rfl

theorem isGroupRow {k : String} (hk : k ∈ groupKeys scope groupBy rows) :
    IsGroupRow scope aggregates groupBy rows k
      (groupRow scope aggregates groupBy (groupMembers (groupKey scope groupBy) rows k)) := by
  obtain ⟨row, hrow, hkey⟩ := mem_groupKeys.mp hk
  cases hfirst : rows.find? fun row => groupKey scope groupBy row = k with
  | none => exact absurd (decide_eq_true hkey) (List.find?_eq_none.mp hfirst row hrow)
  | some first =>
    refine ⟨first, _, hfirst, aggregateRows_nil _ _ _, ?_⟩
    have hhead : (groupMembers (groupKey scope groupBy) rows k).head? = some first := by
      rw [groupMembers, List.head?_filter, hfirst]
    rw [groupRow, groupColumns, hhead]
    rfl

/-- A name shows the value that the last aggregates of this name agree on. -/
theorem get?_aggregateGroup_append {name : String} {value : Scalar} (before : List Aggregate)
    {behind : List Aggregate} (hnamed : ∃ a ∈ behind, a.outputName = name)
    (hvalue : ∀ a ∈ behind, a.outputName = name → a.value scope rows = value) :
    (aggregateGroup scope (before ++ behind) rows).get? name = some value := by
  rw [aggregateGroup, List.map_append, OrderedMap.ofList, OrderedMap.insertAll_append]
  refine OrderedMap.get?_insertAll_of_forall _ _ ?_ ?_
  · obtain ⟨a, ha, rfl⟩ := hnamed
    exact List.mem_map.mpr ⟨_, List.mem_map_of_mem ha, rfl⟩
  · rintro e he hname
    obtain ⟨a, ha, rfl⟩ := List.mem_map.mp he
    exact hvalue a ha hname

/-- The row of a group shows its aggregates, whatever the group columns are called. -/
theorem get?_groupRow {name : String} {value : Scalar}
    (h : (aggregateGroup scope aggregates rows).get? name = some value) :
    (groupRow scope aggregates groupBy rows).get? name = some value := by
  refine OrderedMap.get?_insertAll_of_forall _ _ (OrderedMap.mem_keys_of_get? h) ?_
  rintro ⟨other, v⟩ he rfl
  have hfound := (OrderedMap.get?_eq_some_iff _ _ _).mpr he
  exact Option.some.inj (hfound.symm.trans h)

/-- The row of a group shows how many rows the group has, unless another aggregate of the same name
counts something else. -/
theorem get?_groupRow_count {a : Aggregate} (ha : a ∈ aggregates)
    (hcounts : ∀ b ∈ aggregates, b.outputName = a.outputName → b.countsRows = true)
    {members : List Row} (hmembers : members ≠ []) :
    (groupRow scope aggregates groupBy members).get? a.outputName =
      some (.int (Int64.ofNat members.length)) := by
  refine get?_groupRow (get?_aggregateGroup_append [] ⟨a, ha, rfl⟩ ?_)
  intro b hb hname
  rw [Aggregate.value, if_neg (by simpa using hmembers), if_pos (hcounts b hb hname)]

theorem sum_ofNat : ∀ sizes : List Nat, (sizes.map Int64.ofNat).sum = Int64.ofNat sizes.sum
  | [] => rfl
  | n :: sizes => by rw [List.map_cons, List.sum_cons, sum_ofNat, List.sum_cons, Int64.ofNat_add]

theorem sum_toInt_ofNat : ∀ {sizes : List Nat}, sizes.sum < 2 ^ 63 →
    ((sizes.map Int64.ofNat).map Int64.toInt).sum = sizes.sum
  | [], _ => rfl
  | n :: sizes, h => by
    rw [List.sum_cons] at h
    have hn : n < 2 ^ 63 := Nat.lt_of_le_of_lt (Nat.le_add_right _ _) h
    have hrest : sizes.sum < 2 ^ 63 := Nat.lt_of_le_of_lt (Nat.le_add_left _ _) h
    rw [List.map_cons, List.map_cons, List.sum_cons, sum_toInt_ofNat hrest, List.sum_cons,
      Int64.toInt_ofNat_of_lt hn, Int.natCast_add]

/-- The rows `out` are those of the groups into which `rows` fall. -/
structure IsGrouping (scope : Scope) (aggregates : List Aggregate) (groupBy : List String)
    (rows out : List Row) : Prop where
  /-- There is one row for each key. -/
  groupRows : List.Forall₂ (IsGroupRow scope aggregates groupBy rows)
    (groupKeys scope groupBy rows) out
  /-- The keys are those of the rows, each once, in the order in which they first occur. -/
  mem_keys : ∀ k, k ∈ groupKeys scope groupBy rows ↔ ∃ row ∈ rows, groupKey scope groupBy row = k
  keys_ordered : (groupKeys scope groupBy rows).Pairwise fun k k' =>
    (rows.map (groupKey scope groupBy)).idxOf k < (rows.map (groupKey scope groupBy)).idxOf k'
  /-- Every row is in one group, as often as it occurs. -/
  exists_unique_group : ∀ row ∈ rows, ∃! k, k ∈ groupKeys scope groupBy rows ∧
    row ∈ groupMembers (groupKey scope groupBy) rows k
  members_perm : ((groupKeys scope groupBy rows).flatMap
    (groupMembers (groupKey scope groupBy) rows)).Perm rows
  sum_sizes : ((groupKeys scope groupBy rows).map fun k =>
    (groupMembers (groupKey scope groupBy) rows k).length).sum = rows.length
  /-- Counts of rows add up to the number of rows, if 64 bits hold it. -/
  sum_counts : ∀ a ∈ aggregates,
    (∀ b ∈ aggregates, b.outputName = a.outputName → b.countsRows = true) →
      ∃ counts : List Int64, out.map (·.get? a.outputName) = counts.map (some <| .int ·) ∧
        counts.sum = Int64.ofNat rows.length ∧
        (rows.length < 2 ^ 63 → (counts.map Int64.toInt).sum = rows.length)

/-- Grouping is a partition, and the row of a group is its own aggregation. -/
theorem aggregateRows_grouped (scope : Scope) {aggregates : List Aggregate}
    {groupBy : List String} {rows : List Row} (hgroup : groupBy ≠ [])
    (hrows : rows ≠ [] ∨ aggregates = []) :
    IsGrouping scope aggregates groupBy rows (aggregateRows scope aggregates groupBy rows) := by
  have heq : aggregateRows scope aggregates groupBy rows =
      (groupKeys scope groupBy rows).map fun k =>
        groupRow scope aggregates groupBy (groupMembers (groupKey scope groupBy) rows k) :=
    aggregateRows_eq hgroup hrows
  have hperm : ((groupKeys scope groupBy rows).flatMap
      (groupMembers (groupKey scope groupBy) rows)).Perm rows := by
    apply flatMap_groupMembers_perm (Sql.nodup_distinct _)
    intro row hrow
    exact mem_groupKeys.mpr ⟨row, hrow, rfl⟩
  have hsum : ((groupKeys scope groupBy rows).map fun k =>
      (groupMembers (groupKey scope groupBy) rows k).length).sum = rows.length := by
    rw [← List.length_flatMap, hperm.length_eq]
  refine ⟨?_, fun _ => mem_groupKeys, Sql.pairwise_idxOf_distinct _, ?_, hperm, hsum, ?_⟩
  · rw [heq, List.forall₂_map_right_iff, List.forall₂_same]
    intro k hk
    exact isGroupRow hk
  · intro row hrow
    refine ⟨groupKey scope groupBy row,
      ⟨mem_groupKeys.mpr ⟨row, hrow, rfl⟩, mem_groupMembers.mpr ⟨hrow, rfl⟩⟩, ?_⟩
    rintro k ⟨-, hmem⟩
    exact (mem_groupMembers.mp hmem).2.symm
  · intro a ha hcounts
    let sizes := (groupKeys scope groupBy rows).map fun k =>
      (groupMembers (groupKey scope groupBy) rows k).length
    refine ⟨sizes.map Int64.ofNat, ?_, ?_, ?_⟩
    · rw [heq, List.map_map, List.map_map, List.map_map]
      refine List.map_congr_left fun k hk => ?_
      obtain ⟨row, hrow, hkey⟩ := mem_groupKeys.mp hk
      exact get?_groupRow_count ha hcounts (List.ne_nil_of_mem (mem_groupMembers.mpr ⟨hrow, hkey⟩))
    · rw [sum_ofNat, hsum]
    · intro hlt
      rw [sum_toInt_ofNat (hsum ▸ hlt), hsum]

end Groups

namespace Sample

/-- The visits to two cities, one of them without a name. -/
def visits : List Row :=
  [.ofList [("city", .text "Rome"), ("hours", .int 3)], .ofList [("hours", .int 4)],
    .ofList [("city", .text "Rome"), ("hours", .int 5)]]

def visitCounts : List Aggregate := [⟨.count, "*", some "visits"⟩, ⟨.sum, "v.hours", none⟩]

theorem aggregateRows_grouped_visits :
    aggregateRows ⟨["visits"], .ofList [("v", "visits")]⟩ visitCounts ["v.city"] visits =
        [.ofList [("city", .text "Rome"), ("v.city", .text "Rome"), ("visits", .int 2),
            ("sum_v.hours", .int 8)],
          .ofList [("city", .null), ("v.city", .null), ("visits", .int 1),
            ("sum_v.hours", .int 4)]] ∧
      ["v.city"] ≠ [] ∧ (visits ≠ [] ∨ visitCounts = []) ∧
      IsGrouping ⟨["visits"], .ofList [("v", "visits")]⟩ visitCounts ["v.city"] visits
        (aggregateRows ⟨["visits"], .ofList [("v", "visits")]⟩ visitCounts ["v.city"] visits) := by
  have hgroup : ["v.city"] ≠ [] := by decide
  have hrows : visits ≠ [] ∨ visitCounts = [] := by decide
  exact ⟨by decide +kernel, hgroup, hrows, aggregateRows_grouped _ hgroup hrows⟩

end Sample
end DocumentSql
