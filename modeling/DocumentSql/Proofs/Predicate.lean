/-
# Conditions partition the rows

A cell and a value that are not null have an order, so the cell stands in
exactly one of the relations `<`, `=` and `>` to the value; `>=` and `<=` allow
two of them, and `!=` denies the middle one. A null or missing cell satisfies
`!=` and nothing else, LIKE and IN included. So no row is missing both from a
filter and from its negation (`Predicate.isCoherent`).

Key definitions: `Comparison.ofOrdering`, `Scalar.IsOrderedWith`,
`Predicate.IsCoherent`.
Key theorems: `Predicate.holds_of_ne_like`, `Predicate.isCoherent`.
-/
import DocumentSql.Predicate
import DocumentSql.Proofs.Scalar

namespace DocumentSql

namespace Comparison

/-- The comparison that only one outcome satisfies. -/
def ofOrdering : Ordering → Comparison
  | .lt => .less
  | .eq => .eq
  | .gt => .greater

theorem accepts_ofOrdering (asked found : Ordering) :
    (ofOrdering asked).accepts (some found) = true ↔ asked = found := by
  cases asked <;> cases found <;> simp [ofOrdering, accepts]

theorem mem_ofOrdering (comparison : Comparison) :
    comparison ∈ [less, eq, greater] ↔ ∃ asked, ofOrdering asked = comparison := by
  constructor
  · intro h
    simp only [List.mem_cons, List.not_mem_nil, or_false] at h
    rcases h with rfl | rfl | rfl
    · exact ⟨.lt, rfl⟩
    · exact ⟨.eq, rfl⟩
    · exact ⟨.gt, rfl⟩
  · rintro ⟨asked, rfl⟩
    cases asked <;> simp [ofOrdering]

end Comparison

/-- What the order of two cells and the equality that joins use have to do with each other. -/
structure Scalar.IsOrderedWith (a b : Scalar) : Prop where
  /-- There is an order unless one of them is null. -/
  compare?_eq_none_iff : compare? a b = none ↔ a = .null ∨ b = .null
  /-- The other way round it is the opposite one. -/
  compare?_swap : compare? b a = (compare? a b).map Ordering.swap
  looselyEquals_comm : a.looselyEquals b = b.looselyEquals a
  compare?_of_looselyEquals : a.looselyEquals b = true → compare? a b = some .eq

theorem Scalar.isOrderedWith (a b : Scalar) : a.IsOrderedWith b where
  compare?_eq_none_iff := Scalar.compare?_eq_none_iff a b
  compare?_swap := Scalar.compare?_swap a b
  looselyEquals_comm := Scalar.looselyEquals_comm a b
  compare?_of_looselyEquals := Scalar.compare?_of_looselyEquals

theorem Row.cell_eq_null_iff (row : Row) (column : String) :
    row.cell column = .null ↔ row.get? column = none ∨ row.get? column = some .null := by
  unfold cell
  cases row.get? column <;> simp

namespace Predicate

/-- All comparisons but LIKE go by the order of the cell and the value. -/
theorem holds_of_ne_like {comparison : Comparison} (h : comparison ≠ .like) (row : Row)
    (column : String) (value : Scalar) :
    holds ⟨column, comparison, value⟩ row =
      comparison.accepts (Scalar.compare? (row.cell column) value) := by
  unfold holds holdsFor
  cases comparison <;> first | rfl | exact absurd rfl h

/-- What the conditions on a column say about a row, for a value to compare with. -/
structure IsCoherent (row : Row) (column : String) (value : Scalar) : Prop where
  /-- A cell that is not null stands in one of three relations to the value, and in no two. -/
  existsUnique : ∀ cell, row.get? column = some cell → cell ≠ .null →
    ∃! comparison, comparison ∈ [Comparison.less, .eq, .greater] ∧
      holds ⟨column, comparison, value⟩ row = true
  greaterEq : holds ⟨column, .greaterEq, value⟩ row =
    (holds ⟨column, .greater, value⟩ row || holds ⟨column, .eq, value⟩ row)
  lessEq : holds ⟨column, .lessEq, value⟩ row =
    (holds ⟨column, .less, value⟩ row || holds ⟨column, .eq, value⟩ row)
  notEq : holds ⟨column, .notEq, value⟩ row = !holds ⟨column, .eq, value⟩ row
  /-- A null or missing cell satisfies one comparison of all. -/
  null : row.get? column = none ∨ row.get? column = some .null →
    ∀ comparison, holds ⟨column, comparison, value⟩ row = true ↔ comparison = .notEq

/-- One outcome satisfies one of the comparisons that ask for one. -/
theorem existsUnique_of_compare? {row : Row} {column : String} {value : Scalar} {found : Ordering}
    (h : Scalar.compare? (row.cell column) value = some found) :
    ∃! comparison, comparison ∈ [Comparison.less, .eq, .greater] ∧
      holds ⟨column, comparison, value⟩ row = true := by
  have hholds : ∀ asked, holds ⟨column, .ofOrdering asked, value⟩ row = true ↔ asked = found := by
    intro asked
    have hlike : Comparison.ofOrdering asked ≠ .like := by
      cases asked <;> simp [Comparison.ofOrdering]
    rw [holds_of_ne_like hlike, h, Comparison.accepts_ofOrdering]
  refine ⟨.ofOrdering found, ⟨?_, (hholds found).mpr rfl⟩, ?_⟩
  · exact (Comparison.mem_ofOrdering _).mpr ⟨found, rfl⟩
  · rintro comparison ⟨hmem, hcomparison⟩
    obtain ⟨asked, rfl⟩ := (Comparison.mem_ofOrdering comparison).mp hmem
    rw [(hholds asked).mp hcomparison]

/-- Null satisfies `!=` only, whatever it is compared with. -/
theorem holds_null_iff {row : Row} {column : String} (hcell : row.cell column = .null)
    (comparison : Comparison) (value : Scalar) :
    holds ⟨column, comparison, value⟩ row = true ↔ comparison = .notEq := by
  by_cases hlike : comparison = .like
  · subst hlike
    simp [holds, holdsFor, hcell, Scalar.isNull]
  · have hnone : Scalar.compare? .null value = none :=
      (Scalar.compare?_eq_none_iff _ _).mpr (.inl rfl)
    rw [holds_of_ne_like hlike, hcell, hnone]
    cases comparison <;> simp [Comparison.accepts]

/-- Cells are totally ordered off null, and the conditions on a column agree with that order. -/
theorem isCoherent (a b : Scalar) (row : Row) (column : String) {value : Scalar}
    (hvalue : value ≠ .null) : a.IsOrderedWith b ∧ IsCoherent row column value := by
  refine ⟨a.isOrderedWith b, ?_, ?_, ?_, ?_, ?_⟩
  · intro cell hget hcell
    have hrow : row.cell column = cell := by rw [Row.cell, hget, Option.getD_some]
    cases hfound : Scalar.compare? (row.cell column) value with
    | none =>
      rw [hrow, Scalar.compare?_eq_none_iff] at hfound
      exact absurd hfound (not_or.mpr ⟨hcell, hvalue⟩)
    | some found => exact existsUnique_of_compare? hfound
  · rw [holds_of_ne_like (by simp), holds_of_ne_like (by simp), holds_of_ne_like (by simp)]
    rfl
  · rw [holds_of_ne_like (by simp), holds_of_ne_like (by simp), holds_of_ne_like (by simp)]
    rfl
  · rw [holds_of_ne_like (by simp), holds_of_ne_like (by simp)]
    rfl
  · intro hnull comparison
    exact holds_null_iff ((Row.cell_eq_null_iff row column).mpr hnull) comparison value

end Predicate

namespace Sample

/-- A measurement that failed, as a double and in words. -/
def failedReading : Row := .ofList [("value", .float .nan), ("unit", .null)]

theorem isCoherent_failedReading :
    (Scalar.float .nan).compare? (.text "nan") = some .lt ∧ (.int 3 : Scalar) ≠ .null ∧
      (Scalar.float .nan).IsOrderedWith (.text "nan") ∧
      Predicate.IsCoherent failedReading "value" (.int 3) := by
  have hvalue : (.int 3 : Scalar) ≠ .null := by simp
  exact ⟨by decide +kernel, hvalue, Predicate.isCoherent _ _ failedReading "value" hvalue⟩

end Sample
end DocumentSql
