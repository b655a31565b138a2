/-
# The group columns that a row shows

The row of a group holds each group column of the first row of the group twice,
under its bare name and as it is written. All of them go to one map, one after
the other, so what stands under a key is the value of the last group column that
goes there (`get?_groupCells`). A column is shown as it was grouped by unless a
later one has its spelling as a bare name and another value
(`aggregateRows_showsGroup`): `GROUP BY id, o.id` shows under `id` what the group
has under `o.id` (`aggregateRows_bare_name`).

Key definitions: `IsShownUnder`, `shownColumn?`, `ShowsGroup`.
Key theorems: `get?_groupCells`, `aggregateRows_showsGroup`.
-/
import DocumentSql.Proofs.Select.Grouping

namespace DocumentSql

/-- A group column is shown under its bare name and as it is written. -/
def IsShownUnder (key column : String) : Prop := Column.bareName column = key ∨ column = key

instance (key column : String) : Decidable (IsShownUnder key column) :=
  inferInstanceAs (Decidable (_ ∨ _))

/-- The last of the group columns that are shown under a key. -/
def shownColumn? (groupBy : List String) (key : String) : Option String :=
  groupBy.reverse.find? fun column => IsShownUnder key column

theorem shownColumn?_eq_some_iff {groupBy : List String} {key column : String} :
    shownColumn? groupBy key = some column ↔ IsShownUnder key column ∧
      ∃ before behind, groupBy = before ++ column :: behind ∧
        ∀ later ∈ behind, ¬ IsShownUnder key later := by
  rw [shownColumn?, List.find?_eq_some_iff_append, decide_eq_true_iff]
  refine and_congr_right fun _ => ⟨?_, ?_⟩
  · rintro ⟨behind, before, hreverse, hbehind⟩
    refine ⟨before.reverse, behind.reverse, ?_, fun later hlater => ?_⟩
    · rw [← List.reverse_reverse groupBy, hreverse]
      simp
    · simpa using hbehind later (List.mem_reverse.mp hlater)
  · rintro ⟨before, behind, rfl, hbehind⟩
    refine ⟨behind.reverse, before.reverse, by simp, fun later hlater => ?_⟩
    simpa using hbehind later (List.mem_reverse.mp hlater)

/-- The value of a group column in a row, null if the row has none. -/
def groupCell (scope : Scope) (row : Row) (column : String) : Scalar :=
  (scope.lookupLenient? row column).getD .null

variable {scope : Scope} {aggregates : List Aggregate} {groupBy : List String} {rows : List Row}

theorem get?_groupCells_append {row : Row} {key : String} {value : Scalar}
    {before behind : List String} (hshown : ∃ column ∈ behind, IsShownUnder key column)
    (hvalue : ∀ column ∈ behind, IsShownUnder key column → groupCell scope row column = value) :
    (groupCells scope (before ++ behind) row).get? key = some value := by
  let cells := fun column =>
    [(Column.bareName column, groupCell scope row column), (column, groupCell scope row column)]
  have hcells : ∀ {column e}, e ∈ cells column ↔
      (e.1 = Column.bareName column ∨ e.1 = column) ∧ e.2 = groupCell scope row column := by
    simp [cells, Prod.ext_iff, or_and_right]
  have hwrites : groupCells scope (before ++ behind) row =
      (OrderedMap.ofList (before.flatMap cells)).insertAll (behind.flatMap cells) := by
    rw [OrderedMap.ofList, ← OrderedMap.insertAll_append, ← List.flatMap_append]
    rfl
  rw [hwrites]
  refine OrderedMap.get?_insertAll_of_forall _ _ ?_ ?_
  · obtain ⟨column, hcolumn, hkey⟩ := hshown
    refine List.mem_map.mpr ⟨(key, groupCell scope row column), ?_, rfl⟩
    exact List.mem_flatMap.mpr ⟨column, hcolumn, hcells.mpr ⟨hkey.imp Eq.symm Eq.symm, rfl⟩⟩
  · rintro e he rfl
    obtain ⟨column, hcolumn, hmem⟩ := List.mem_flatMap.mp he
    obtain ⟨hkey, hcell⟩ := hcells.mp hmem
    exact hcell.trans (hvalue column hcolumn (hkey.imp Eq.symm Eq.symm))

theorem get?_groupCells {row : Row} {key column : String}
    (h : shownColumn? groupBy key = some column) :
    (groupCells scope groupBy row).get? key = some (groupCell scope row column) := by
  obtain ⟨hcolumn, before, behind, rfl, hbehind⟩ := shownColumn?_eq_some_iff.mp h
  refine get?_groupCells_append ⟨column, List.mem_cons_self, hcolumn⟩ ?_
  rw [List.forall_mem_cons]
  exact ⟨fun _ => rfl, fun later hlater hshown => absurd hshown (hbehind later hlater)⟩

/-- A row shows the group columns as `first` has them. -/
structure ShowsGroup (scope : Scope) (groupBy : List String) (first out : Row) : Prop where
  /-- A column as it is written shows the last column that has this spelling or bare name. -/
  get?_eq : ∀ column ∈ groupBy, ∃ shown ∈ groupBy, shownColumn? groupBy column = some shown ∧
    out.get? column = some (groupCell scope first shown)
  /-- A column shows its own value, if those behind it with this bare name have the same. -/
  get?_self : ∀ before column behind, groupBy = before ++ column :: behind →
    (∀ later ∈ behind, Column.bareName later = column →
      groupCell scope first later = groupCell scope first column) →
    out.get? column = some (groupCell scope first column)

theorem showsGroup_of_get? {first out : Row}
    (h : ∀ column ∈ groupBy, out.get? column = (groupCells scope groupBy first).get? column) :
    ShowsGroup scope groupBy first out := by
  refine ⟨fun column hcolumn => ?_, ?_⟩
  · cases hshown : shownColumn? groupBy column with
    | none =>
      have hnot := List.find?_eq_none.mp hshown column (List.mem_reverse.mpr hcolumn)
      exact absurd (decide_eq_true (.inr rfl)) hnot
    | some shown =>
      exact ⟨shown, List.mem_reverse.mp (List.mem_of_find?_eq_some hshown), rfl,
        (h column hcolumn).trans (get?_groupCells hshown)⟩
  · rintro before column behind rfl hsame
    rw [h column (List.mem_append_right before List.mem_cons_self)]
    refine get?_groupCells_append ⟨column, List.mem_cons_self, .inr rfl⟩ ?_
    rw [List.forall_mem_cons]
    refine ⟨fun _ => rfl, fun later hlater hshown => ?_⟩
    rcases hshown with hbare | rfl
    · exact hsame later hlater hbare
    · rfl

/-- Each row shows the columns by which it was grouped, as the first row of its group has them. -/
theorem aggregateRows_showsGroup (hgroup : groupBy ≠ []) (hrows : rows ≠ [])
    (hnames : ∀ a ∈ aggregates, a.outputName ∉ groupBy) :
    List.Forall₂ (fun k out => ∃ first,
        rows.find? (fun row => groupKey scope groupBy row = k) = some first ∧
          ShowsGroup scope groupBy first out)
      (groupKeys scope groupBy rows) (aggregateRows scope aggregates groupBy rows) := by
  rw [aggregateRows_eq hgroup (.inl hrows), List.forall₂_map_right_iff, List.forall₂_same]
  intro k hk
  have hrow : IsGroupRow scope aggregates groupBy rows k _ := isGroupRow hk
  obtain ⟨first, single, hfirst, hsingle, hout⟩ := hrow
  refine ⟨first, hfirst, showsGroup_of_get? fun column hcolumn => ?_⟩
  -- the aggregates are shown under other names
  have hother : column ∉ single.entries.map Prod.fst := by
    obtain rfl := (List.cons.inj hsingle).1
    refine (OrderedMap.get?_eq_none_iff _ column).mp ?_
    refine (OrderedMap.get?_insertAll_of_notMem _ _ ?_).trans (OrderedMap.get?_empty column)
    rw [List.map_map, List.mem_map]
    rintro ⟨a, ha, rfl⟩
    exact hnames a ha hcolumn
  rw [hout, OrderedMap.get?_insertAll_of_notMem _ _ hother]

namespace Sample

/-- A user beside an order of theirs, as a join of `users` with `orders` gives them. -/
def ordersByUser : List Row := [.ofList [("id", .int 1), ("orders.id", .int 10)]]

def orderScope : Scope := ⟨["users", "orders"], .ofList [("o", "orders")]⟩

def orderCount : List Aggregate := [⟨.count, "*", some "n"⟩]

/-- Written last, the bare column shows its own value. -/
theorem aggregateRows_showsGroup_orders :
    aggregateRows orderScope orderCount ["o.id", "id"] ordersByUser =
        [.ofList [("id", .int 1), ("o.id", .int 10), ("n", .int 1)]] ∧
      (∀ a ∈ orderCount, a.outputName ∉ ["o.id", "id"]) ∧
      List.Forall₂ (fun k out => ∃ first,
          ordersByUser.find? (fun row => groupKey orderScope ["o.id", "id"] row = k) = some first ∧
            ShowsGroup orderScope ["o.id", "id"] first out)
        (groupKeys orderScope ["o.id", "id"] ordersByUser)
        (aggregateRows orderScope orderCount ["o.id", "id"] ordersByUser) := by
  have hnames : ∀ a ∈ orderCount, a.outputName ∉ ["o.id", "id"] := by decide
  exact ⟨by decide +kernel, hnames, aggregateRows_showsGroup (by decide) (by decide) hnames⟩

/-- Written first, the bare column shows the value of the other one. -/
theorem aggregateRows_bare_name :
    ordersByUser.map (orderScope.lookupLenient? · "id") = [some (.int 1)] ∧
      (aggregateRows orderScope orderCount ["id", "o.id"] ordersByUser).map (·.get? "id") =
        [some (.int 10)] := by
  decide +kernel

end Sample
end DocumentSql
