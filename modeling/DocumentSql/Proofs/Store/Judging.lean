/-
# Conditions that mean the same on stored rows

A stored row is judged by the cell at the end of a path, which is compared
without types. This agrees with `Predicate.holds` if the path means the cell of
the column, and if the cell is null or of the same kind as the value, integers
up to `2^53` in size (`Predicate.IsPlainFor`, `Predicate.judge_eq`). The rows
that are looked at until there are enough of them are then the first ones that
satisfy the predicates (`Predicate.select_eq`), and so are the documents that
are fetched (`SerializedStore.fetch_eq`).

Key definitions: `Scalar.SameKind`, `Predicate.IsPlainFor`.
Key theorems: `Predicate.judge_eq`, `Predicate.select_eq`,
`SerializedStore.fetch_eq`.
-/
import DocumentSql.Proofs.Json.Cells
import DocumentSql.Proofs.Store.CellPath
import DocumentSql.Store.Serialized

namespace DocumentSql

/-! ### Comparing without types -/

/-- A cell is null, or of the same kind as a value. Integers are up to `2^53` in size. -/
inductive Scalar.SameKind : Scalar → Scalar → Prop
  | null (value : Scalar) : SameKind .null value
  | bool (a b : Bool) : SameKind (.bool a) (.bool b)
  | int {a b : Int64} (exact : IsExactInt a) (exact' : IsExactInt b) : SameKind (.int a) (.int b)
  | text (a b : String) : SameKind (.text a) (.text b)

instance Scalar.decidableSameKind : ∀ cell value : Scalar, Decidable (cell.SameKind value)
  | .null, value => .isTrue (.null value)
  | .bool a, .bool b => .isTrue (.bool a b)
  | .int a, .int b =>
    decidable_of_iff (IsExactInt a ∧ IsExactInt b)
      ⟨fun h => .int h.1 h.2, fun h => by cases h with | int exact exact' => exact ⟨exact, exact'⟩⟩
  | .text a, .text b => .isTrue (.text a b)
  | .float _, _ => .isFalse nofun
  | .bool _, .null | .bool _, .int _ | .bool _, .float _ | .bool _, .text _
  | .int _, .null | .int _, .bool _ | .int _, .float _ | .int _, .text _
  | .text _, .null | .text _, .bool _ | .text _, .int _ | .text _, .float _ => .isFalse nofun

namespace Stored

theorem compare?_eq {cell value : Scalar} (h : cell.SameKind value) :
    (ofCell cell).compare? (ofScalar value) = cell.compare? value := by
  cases h with
  | null => rfl
  | bool a b => cases a <;> cases b <;> rfl
  | int exact exact' => exact (Scalar.compare?_int exact exact').symm
  | text a b => rfl

theorem ofCell_ne_nothing {cell value : Scalar} (h : cell.SameKind value)
    (hcell : cell.isNull = false) : (ofCell cell == .nothing) = false := by
  cases h with
  | null => cases hcell
  | bool | int | text => rfl

end Stored

/-- Values of one kind compare. -/
theorem Scalar.SameKind.exists_compare? {cell value : Scalar} (h : cell.SameKind value)
    (hcell : cell.isNull = false) : ∃ o, cell.compare? value = some o := by
  cases h with
  | null => cases hcell
  | bool a b => exact ⟨_, rfl⟩
  | int exact exact' => exact ⟨_, Scalar.compare?_int exact exact'⟩
  | text a b => exact ⟨_, rfl⟩

/-- A comparison without types holds where the comparison of cells does. -/
theorem Comparison.holdsBetween_eq {p : Predicate} {cell : Scalar} (hlike : p.comparison ≠ .like)
    (h : cell.SameKind p.value) :
    p.comparison.holdsBetween (.ofCell cell) (.ofScalar p.value) = p.holdsFor cell := by
  have hcompare := Stored.compare?_eq h
  unfold Comparison.holdsBetween Predicate.holdsFor
  cases hc : p.comparison with
  | like => exact absurd hc hlike
  | inList => rfl
  | notEq =>
    simp only [hcompare, accepts]
    cases hnull : cell.isNull with
    | true =>
      have hcell : cell = .null := by cases cell <;> first | rfl | cases hnull
      rw [hcell]
      rfl
    | false =>
      obtain ⟨o, ho⟩ := h.exists_compare? hnull
      rw [Stored.ofCell_ne_nothing h hnull, ho]
      cases o <;> rfl
  | eq | greater | less | greaterEq | lessEq => simp only [hcompare]

namespace Predicate

/-! ### Judging rows -/

variable {p : Predicate} {ps : List Predicate}

/-- The path to the column of the predicate means that column of the row, and its cell is null or of
the same kind as the value. -/
structure IsPlainFor (p : Predicate) (row : Row) : Prop where
  isPlainName : CellPath.IsPlainName p.column
  isOnlyName : CellPath.IsOnlyName p.column row
  sameKind : (row.cell p.column).SameKind p.value

instance (p : Predicate) (row : Row) : Decidable (p.IsPlainFor row) :=
  decidable_of_iff (CellPath.IsPlainName p.column ∧ CellPath.IsOnlyName p.column row ∧
      (row.cell p.column).SameKind p.value)
    ⟨fun ⟨h, h', h''⟩ => ⟨h, h', h''⟩, fun h => ⟨h.isPlainName, h.isOnlyName, h.sameKind⟩⟩

/-- The value of the predicate is null, or the predicate is plain for the row. -/
def IsSettledFor (p : Predicate) (row : Row) : Prop := p.value.isNull = true ∨ p.IsPlainFor row

instance (p : Predicate) (row : Row) : Decidable (p.IsSettledFor row) :=
  inferInstanceAs (Decidable (p.value.isNull = true ∨ p.IsPlainFor row))

/-- A predicate with a null value holds for all rows or for none, by its comparison. -/
theorem holds_of_isNull (hlike : p.comparison ≠ .like) (h : p.value.isNull = true) (row : Row) :
    p.holds row = (p.comparison == .notEq) := by
  have hvalue : p.value = .null := by
    cases hv : p.value <;> first | rfl | (rw [hv] at h; cases h)
  have hnone : (row.cell p.column).compare? .null = none := by
    cases row.cell p.column <;> rfl
  unfold holds holdsFor
  rw [hvalue]
  cases hc : p.comparison with
  | like => exact absurd hc hlike
  | eq | notEq | greater | less | greaterEq | lessEq | inList => simp only [hnone]; rfl

/-- A column that a path can name is judged by its cell, compared without types. -/
theorem judge_eq_holdsBetween (hnull : p.value.isNull = false) (hin : p.comparison ≠ .inList)
    (hlike : p.comparison ≠ .like) {row : Row} (hplain : CellPath.IsPlainName p.column)
    (honly : CellPath.IsOnlyName p.column row) :
    p.judge row =
      .ok (p.comparison.holdsBetween (.ofCell (row.cell p.column)) (.ofScalar p.value)) := by
  have hlong : p.isOverlong = false := by
    simp [isOverlong, hlike]
  simp only [judge, constant?, hnull, beq_eq_false_iff_ne.mpr hin, Bool.false_eq_true, if_false,
    CellPath.ofColumn?_of_isPlainName hplain, CellPath.lookup_eq hplain honly, hlong]

/-- A stored row is judged as the row is. -/
theorem judge_eq (hlike : p.comparison ≠ .like) {row : Row} (h : p.IsSettledFor row) :
    p.judge row = .ok (p.holds row) := by
  by_cases hnull : p.value.isNull = true
  · rw [judge, constant?, if_pos hnull, holds_of_isNull hlike hnull]
  have hplain := h.resolve_left hnull
  by_cases hin : p.comparison = .inList
  · simp only [judge, constant?, hnull, hin, beq_self_eq_true, if_true, holds, holdsFor]
    rfl
  · rw [judge_eq_holdsBetween (Bool.eq_false_iff.mpr hnull) hin hlike hplain.isPlainName
      hplain.isOnlyName, Comparison.holdsBetween_eq hlike hplain.sameKind, holds]

theorem judgeAll_eq {row : Row} : ∀ {ps : List Predicate},
    (∀ p ∈ ps, p.judge row = .ok (p.holds row)) →
      judgeAll ps row = .ok (ps.all (·.holds row))
  | [], _ => rfl
  | p :: ps, h => by
    obtain ⟨hp, hps⟩ := List.forall_mem_cons.mp h
    rw [judgeAll, hp, List.all_cons]
    cases p.holds row with
    | false => rfl
    | true => rw [judgeAll_eq hps, Bool.true_and]

/-- The rows that are found are the first ones that are kept. -/
theorem firstOf_of_judgeAll {keeps : StoredRow → Bool} : ∀ {rows : List StoredRow} (limit : Nat),
    (∀ r ∈ rows, judgeAll ps r.row = .ok (keeps r)) →
      firstOf ps limit rows = .ok ((rows.filter keeps).take limit)
  | _, 0, _ => by rw [firstOf, List.take_zero]
  | [], limit + 1, _ => rfl
  | r :: rows, limit + 1, h => by
    obtain ⟨hr, hrows⟩ := List.forall_mem_cons.mp h
    rw [firstOf, hr, List.filter_cons]
    cases hkeeps : keeps r with
    | true =>
      rw [if_pos rfl, List.take_succ_cons]
      simp only [firstOf_of_judgeAll limit hrows]
      rfl
    | false =>
      rw [if_neg Bool.false_ne_true]
      exact firstOf_of_judgeAll (limit + 1) hrows

/-- A predicate that is known to hold for no row holds for none. -/
theorem holds_eq_false {row : Row} (hc : p.constant? = some false)
    (hp : p.judge row = .ok (p.holds row)) : p.holds row = false := by
  rw [judge, hc] at hp
  exact (Except.ok.inj hp).symm

theorem select_eq {rows : List StoredRow} (limit : Nat) (hdepth : depthOf ps ≤ depthLimit)
    (h : ∀ r ∈ rows, ∀ p ∈ ps, p.judge r.row = .ok (p.holds r.row)) :
    select ps limit rows = .ok ((rows.filter fun r => ps.all (·.holds r.row)).take limit) := by
  rw [select, if_neg (Nat.not_lt.mpr hdepth)]
  split
  · rename_i hany
    obtain ⟨p, hp, hc⟩ := List.any_eq_true.mp hany
    have hnone : (rows.filter fun r => ps.all (·.holds r.row)) = [] := by
      rw [List.filter_eq_nil_iff]
      intro r hr hall
      have hholds := List.all_eq_true.mp hall p hp
      rw [holds_eq_false (beq_iff_eq.mp hc) (h r hr p hp)] at hholds
      cases hholds
    rw [hnone, List.take_nil]
  · exact firstOf_of_judgeAll limit fun r hr => judgeAll_eq (h r hr)

end Predicate

namespace SerializedStore

theorem mapM_document_eq {rows : List StoredRow} (h : ∀ r ∈ rows, r.row.IsWithoutDoubles) :
    rows.mapM StoredRow.document =
      .ok (rows.map fun r => ⟨Decimal.natText r.number, r.row⟩) :=
  mapM_eq_ok_map fun r hr => StoredRow.document_eq (h r hr)

/-- The rows that are fetched are the first ones that satisfy the predicates. -/
theorem fetch_eq (s : SerializedStore) {t : TableSchema} {ps : List Predicate} (limit : Nat)
    (hdepth : Predicate.depthOf ps ≤ Predicate.depthLimit)
    (hrows : ∀ r ∈ s.rowsOf t.id, r.row.IsWithoutDoubles)
    (hjudge : ∀ r ∈ s.rowsOf t.id, ∀ p ∈ ps, p.judge r.row = .ok (p.holds r.row)) :
    ∃ documents, s.fetch t ps limit = .ok documents ∧
      documents.map (·.data) =
        ((((s.rowsOf t.id).map (·.row)).filter fun row => ps.all (·.holds row)).take
          (min limit maxLimit)) := by
  have hselect := Predicate.select_eq (min limit maxLimit) hdepth hjudge
  have hread : ∀ r ∈ ((s.rowsOf t.id).filter fun r => ps.all (·.holds r.row)).take
      (min limit maxLimit), r.row.IsWithoutDoubles := by
    intro r hr
    exact hrows r (List.mem_filter.mp (List.mem_of_mem_take hr)).1
  have hfetch : s.fetch t ps limit = (((s.rowsOf t.id).filter fun r =>
      ps.all (·.holds r.row)).take (min limit maxLimit)).mapM StoredRow.document := by
    rw [fetch, hselect]
    rfl
  refine ⟨_, hfetch.trans (mapM_document_eq hread), ?_⟩
  rw [List.filter_map, ← List.map_take, List.map_map]
  rfl

end SerializedStore
end DocumentSql
