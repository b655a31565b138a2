/-
# Which rows a group takes together

Rows are grouped by the texts of their group columns, which are joined by `|`
to one key. A result has one row for each key, so rows whose texts agree are
always counted together (`aggregateRows_isGroupedBy_groupKey`). The converse
needs that the joined text can be cut into its parts again: that is so if no
text has a `|` in it, but for those of one column, since the parts of the others
are then cut off from both ends (`intercalate_inj_of_eraseIdx`). Otherwise rows
may be counted together that differ in two group columns
(`aggregateRows_bars`).

Key definitions: `groupFragments`, `IsGroupedBy`.
Key theorems: `intercalate_inj_of_eraseIdx`, `aggregateRows_isGroupedBy`.
-/
import DocumentSql.Proofs.Lists
import DocumentSql.Proofs.Select.Grouping
import Mathlib.Data.List.Dedup
import Mathlib.Data.List.InsertIdx
import Mathlib.Data.List.Perm.Basic

namespace DocumentSql

/-! ### Parts behind separators -/

section Separators

variable {α : Type*} [BEq α] [LawfulBEq α]

/-- Two lists cut at the same separator have the same parts, if it is as often in both last
parts. -/
theorem append_cons_inj_of_count_eq {x : α} {a a' b b' : List α} (h : a ++ x :: b = a' ++ x :: b')
    (hcount : b.count x = b'.count x) : a = a' ∧ b = b' := by
  -- a shorter last part would be behind a separator in the longer one
  have hle : ∀ {a a' b b' : List α}, a ++ x :: b = a' ++ x :: b' → b.count x = b'.count x →
      b'.length ≤ b.length := by
    intro a a' b b' h hcount
    by_contra hlt
    have hsuffix : x :: b <:+ b' := by
      refine List.suffix_of_suffix_length_le (List.suffix_append a (x :: b)) ?_ (by simp; omega)
      exact h ▸ (List.suffix_cons x b').trans (List.suffix_append a' (x :: b'))
    have hmore : (x :: b).count x ≤ b'.count x := hsuffix.sublist.count_le x
    rw [List.count_cons_self] at hmore
    omega
  have hlength : b.length = b'.length := Nat.le_antisymm (hle h.symm hcount.symm) (hle h hcount)
  obtain ⟨ha, hb⟩ := List.append_inj' h (by simp [hlength])
  exact ⟨ha, (List.cons.inj hb).2⟩

theorem count_intercalate {x : α} : ∀ {parts : List (List α)}, (∀ part ∈ parts, x ∉ part) →
    ([x].intercalate parts).count x = parts.length - 1
  | [], _ => rfl
  | [part], h => by
    have hpart : x ∉ part := h part List.mem_cons_self
    simp [List.intercalate, List.count_eq_zero_of_not_mem hpart]
  | part :: next :: parts, h => by
    obtain ⟨hpart, hrest⟩ := List.forall_mem_cons.mp h
    rw [List.intercalate_cons_cons, List.append_assoc, List.count_append,
      List.count_eq_zero_of_not_mem hpart, List.singleton_append, List.count_cons_self,
      count_intercalate hrest]
    simp

/-- Joined parts can be cut again, if all but those at one place are without the separator. -/
theorem intercalate_inj_of_eraseIdx {x : α} : ∀ {place : Nat} {parts parts' : List (List α)},
    parts.length = parts'.length → (∀ part ∈ parts.eraseIdx place, x ∉ part) →
      (∀ part ∈ parts'.eraseIdx place, x ∉ part) →
      [x].intercalate parts = [x].intercalate parts' → parts = parts'
  | _, [], [], _, _, _, _ => rfl
  | _, [part], [part'], _, _, _, h => by simpa [List.intercalate] using h
  | 0, part :: next :: parts, part' :: next' :: parts', hlength, hfree, hfree', h => by
    rw [List.intercalate_cons_cons, List.intercalate_cons_cons, List.append_assoc,
      List.append_assoc] at h
    have hrest : (next :: parts).length = (next' :: parts').length := Nat.succ.inj hlength
    have hfree : ∀ p ∈ next :: parts, x ∉ p := hfree
    have hfree' : ∀ p ∈ next' :: parts', x ∉ p := hfree'
    have hcount : ([x].intercalate (next :: parts)).count x =
        ([x].intercalate (next' :: parts')).count x := by
      rw [count_intercalate hfree, count_intercalate hfree', hrest]
    obtain ⟨hpart, hjoined⟩ := append_cons_inj_of_count_eq h hcount
    -- nothing is left out of the parts behind the first
    have hwhole : ∀ {ps : List (List α)}, (∀ p ∈ ps, x ∉ p) →
        ∀ p ∈ ps.eraseIdx ps.length, x ∉ p := by
      intro ps hps p hp
      exact hps p (List.mem_of_mem_eraseIdx hp)
    rw [hpart, intercalate_inj_of_eraseIdx hrest (hwhole hfree) (hrest ▸ hwhole hfree') hjoined]
  | place + 1, part :: next :: parts, part' :: next' :: parts', hlength, hfree, hfree', h => by
    rw [List.intercalate_cons_cons, List.intercalate_cons_cons, List.append_assoc,
      List.append_assoc] at h
    rw [List.eraseIdx_cons_succ, List.forall_mem_cons] at hfree hfree'
    obtain ⟨hpart, hjoined⟩ := append_cons_inj_of_notMem_left hfree.1 hfree'.1 h
    rw [hpart, intercalate_inj_of_eraseIdx (Nat.succ.inj hlength) hfree.2 hfree'.2 hjoined]

end Separators

/-! ### Groups by what rows look like -/

section Looks

variable {α β : Type*} [DecidableEq α] [DecidableEq β]

theorem length_dedup_map_congr {γ : Type*} {f : γ → α} {g : γ → β} : ∀ {xs : List γ},
    (∀ x ∈ xs, ∀ y ∈ xs, f x = f y ↔ g x = g y) →
      (xs.map f).dedup.length = (xs.map g).dedup.length
  | [], _ => rfl
  | x :: xs, h => by
    have hrest : ∀ y ∈ xs, ∀ z ∈ xs, f y = f z ↔ g y = g z := fun y hy z hz =>
      h y (List.mem_cons_of_mem x hy) z (List.mem_cons_of_mem x hz)
    have hmem : f x ∈ xs.map f ↔ g x ∈ xs.map g := by
      rw [List.mem_map, List.mem_map]
      refine exists_congr fun y => and_congr_right fun hy => ?_
      exact h y (List.mem_cons_of_mem x hy) x List.mem_cons_self
    rw [List.map_cons, List.map_cons]
    by_cases hx : f x ∈ xs.map f
    · rw [List.dedup_cons_of_mem hx, List.dedup_cons_of_mem (hmem.mp hx),
        length_dedup_map_congr hrest]
    · rw [List.dedup_cons_of_notMem hx, List.dedup_cons_of_notMem (mt hmem.mpr hx),
        List.length_cons, List.length_cons, length_dedup_map_congr hrest]

/-- The rows `out` are made of groups that take up all of `rows`, two rows being in one group if and
only if they look the same; there are as many as there are different looks. -/
structure IsGroupedBy (look : Row → α) (toRow : List Row → Row) (rows out : List Row) : Prop where
  exists_groups : ∃ groups : List (List Row), out = groups.map toRow ∧ groups.flatten.Perm rows ∧
    ∀ row ∈ rows, ∀ row' ∈ rows,
      (∃ group ∈ groups, row ∈ group ∧ row' ∈ group) ↔ look row = look row'
  length_eq : out.length = (rows.map look).dedup.length

theorem IsGroupedBy.congr {look : Row → α} {look' : Row → β} {toRow : List Row → Row}
    {rows out : List Row} (h : IsGroupedBy look toRow rows out)
    (hlook : ∀ row ∈ rows, ∀ row' ∈ rows, look row = look row' ↔ look' row = look' row') :
    IsGroupedBy look' toRow rows out := by
  obtain ⟨groups, hout, hperm, htogether⟩ := h.exists_groups
  refine ⟨⟨groups, hout, hperm, ?_⟩, ?_⟩
  · intro row hrow row' hrow'
    rw [htogether row hrow row' hrow', hlook row hrow row' hrow']
  · rw [h.length_eq, length_dedup_map_congr hlook]

end Looks

/-! ### The groups of a query -/

variable {scope : Scope} {aggregates : List Aggregate} {groupBy : List String} {rows : List Row}

/-- The texts by which a row is grouped, one for each group column. -/
def groupFragments (scope : Scope) (groupBy : List String) (row : Row) : List String :=
  groupBy.map fun column =>
    match scope.lookupLenient? row column with
    | some v => v.keyFragment
    | none => ""

theorem groupKey_eq (row : Row) :
    groupKey scope groupBy row = "|".intercalate (groupFragments scope groupBy row) := rfl

/-- Keys tell rows apart as the texts do, if these have no `|` but for those of one column. -/
theorem groupKey_eq_iff {place : Nat} {row row' : Row}
    (h : ∀ fragment ∈ (groupFragments scope groupBy row).eraseIdx place, '|' ∉ fragment.toList)
    (h' : ∀ fragment ∈ (groupFragments scope groupBy row').eraseIdx place,
      '|' ∉ fragment.toList) :
    groupKey scope groupBy row = groupKey scope groupBy row' ↔
      groupFragments scope groupBy row = groupFragments scope groupBy row' := by
  refine ⟨fun heq => ?_, fun heq => by rw [groupKey_eq, heq, groupKey_eq]⟩
  have hchars : ∀ {r : Row},
      (∀ fragment ∈ (groupFragments scope groupBy r).eraseIdx place, '|' ∉ fragment.toList) →
        ∀ part ∈ ((groupFragments scope groupBy r).map String.toList).eraseIdx place,
          '|' ∉ part := by
    intro r hr part hpart
    rw [List.eraseIdx_map] at hpart
    obtain ⟨fragment, hfragment, rfl⟩ := List.mem_map.mp hpart
    exact hr fragment hfragment
  have hjoined : ['|'].intercalate ((groupFragments scope groupBy row).map String.toList) =
      ['|'].intercalate ((groupFragments scope groupBy row').map String.toList) := by
    rw [groupKey_eq, groupKey_eq, ← String.toList_inj, String.toList_intercalate,
      String.toList_intercalate] at heq
    exact heq
  have hlength : ((groupFragments scope groupBy row).map String.toList).length =
      ((groupFragments scope groupBy row').map String.toList).length := by
    simp only [groupFragments, List.length_map]
  exact List.map_injective_iff.mpr (fun _ _ => String.toList_inj.mp)
    (intercalate_inj_of_eraseIdx hlength (hchars h) (hchars h') hjoined)

theorem aggregateRows_isGroupedBy_groupKey (hgroup : groupBy ≠ [])
    (hrows : rows ≠ [] ∨ aggregates = []) :
    IsGroupedBy (groupKey scope groupBy) (groupRow scope aggregates groupBy) rows
      (aggregateRows scope aggregates groupBy rows) := by
  have heq : aggregateRows scope aggregates groupBy rows =
      ((groupKeys scope groupBy rows).map (groupMembers (groupKey scope groupBy) rows)).map
        (groupRow scope aggregates groupBy) := by
    rw [aggregateRows_eq hgroup hrows, List.map_map]
    rfl
  refine ⟨⟨_, heq, ?_, ?_⟩, ?_⟩
  · rw [← List.flatMap_def]
    refine flatMap_groupMembers_perm (Sql.nodup_distinct _) fun row hrow => ?_
    exact mem_groupKeys.mpr ⟨row, hrow, rfl⟩
  · intro row hrow row' hrow'
    constructor
    · rintro ⟨group, hgroup, hmem, hmem'⟩
      obtain ⟨k, -, rfl⟩ := List.mem_map.mp hgroup
      rw [(mem_groupMembers.mp hmem).2, (mem_groupMembers.mp hmem').2]
    · intro hkey
      exact ⟨_, List.mem_map_of_mem (mem_groupKeys.mpr ⟨row, hrow, rfl⟩),
        mem_groupMembers.mpr ⟨hrow, rfl⟩, mem_groupMembers.mpr ⟨hrow', hkey.symm⟩⟩
  · have hperm : (groupKeys scope groupBy rows).Perm
        (rows.map (groupKey scope groupBy)).dedup := by
      refine (List.perm_ext_iff_of_nodup (Sql.nodup_distinct _) (List.nodup_dedup _)).mpr ?_
      intro k
      rw [Sql.mem_distinct, List.mem_dedup]
    rw [heq, List.length_map, List.length_map, hperm.length_eq]

/-- Rows are counted together if their joined texts are equal. If the texts have no `|`, but for
those of one column, these are the rows that agree on every group column. -/
theorem aggregateRows_isGroupedBy (hgroup : groupBy ≠ []) (hrows : rows ≠ [] ∨ aggregates = []) :
    IsGroupedBy (groupKey scope groupBy) (groupRow scope aggregates groupBy) rows
        (aggregateRows scope aggregates groupBy rows) ∧
      ∀ place, (∀ row ∈ rows, ∀ fragment ∈ (groupFragments scope groupBy row).eraseIdx place,
          '|' ∉ fragment.toList) →
        IsGroupedBy (groupFragments scope groupBy) (groupRow scope aggregates groupBy) rows
          (aggregateRows scope aggregates groupBy rows) := by
  have hkeys : IsGroupedBy (groupKey scope groupBy) (groupRow scope aggregates groupBy) rows
      (aggregateRows scope aggregates groupBy rows) :=
    aggregateRows_isGroupedBy_groupKey hgroup hrows
  refine ⟨hkeys, fun place hfree => hkeys.congr fun row hrow row' hrow' => ?_⟩
  exact groupKey_eq_iff (hfree row hrow) (hfree row' hrow')

namespace Sample

def entryCount : List Aggregate := [⟨.count, "*", some "n"⟩]

/-- Three entries, two of which have the same person and the same tags. -/
def taggedEntries : List Row :=
  [.ofList [("person", .text "Ada"), ("tags", .text "red|blue")],
    .ofList [("person", .text "Ada"), ("tags", .text "red")],
    .ofList [("person", .text "Ada"), ("tags", .text "red|blue")]]

theorem aggregateRows_isGroupedBy_tags :
    aggregateRows ⟨["entries"], .empty⟩ entryCount ["person", "tags"] taggedEntries =
        [.ofList [("person", .text "Ada"), ("tags", .text "red|blue"), ("n", .int 2)],
          .ofList [("person", .text "Ada"), ("tags", .text "red"), ("n", .int 1)]] ∧
      IsGroupedBy (groupFragments ⟨["entries"], .empty⟩ ["person", "tags"])
        (groupRow ⟨["entries"], .empty⟩ entryCount ["person", "tags"]) taggedEntries
        (aggregateRows ⟨["entries"], .empty⟩ entryCount ["person", "tags"] taggedEntries) := by
  refine ⟨by decide +kernel, (aggregateRows_isGroupedBy (by decide) (by decide)).2 1 ?_⟩
  decide +kernel

/-- Two entries that differ in both columns and have the same key `x|y|z`. -/
def barredEntries : List Row :=
  [.ofList [("a", .text "x|y"), ("b", .text "z")], .ofList [("a", .text "x"), ("b", .text "y|z")]]

/-- Entries that differ in both group columns are counted in one row. -/
theorem aggregateRows_bars :
    aggregateRows ⟨["pairs"], .empty⟩ entryCount ["a", "b"] barredEntries =
        [.ofList [("a", .text "x|y"), ("b", .text "z"), ("n", .int 2)]] ∧
      ¬ IsGroupedBy (groupFragments ⟨["pairs"], .empty⟩ ["a", "b"])
        (groupRow ⟨["pairs"], .empty⟩ entryCount ["a", "b"]) barredEntries
        (aggregateRows ⟨["pairs"], .empty⟩ entryCount ["a", "b"] barredEntries) := by
  refine ⟨by decide +kernel, fun h => ?_⟩
  have hlength : (aggregateRows ⟨["pairs"], .empty⟩ entryCount ["a", "b"] barredEntries).length =
      (barredEntries.map (groupFragments ⟨["pairs"], .empty⟩ ["a", "b"])).dedup.length :=
    h.length_eq
  revert hlength
  decide +kernel

end Sample
end DocumentSql
