/-
# Bounds that are attained

Whatever the values of a column are, MIN and MAX look at those with a numeric
reading only: numbers, and texts that spell one. If there is none, null is
shown. Otherwise what is shown reads as one of these values does, and on the
right side of all of them, as doubles are compared (`IsBoundOf`). Which value is
the best so far and whether all were integers are two things to keep: a later
value can change the second and leave the first as it is, so an integer is shown
only when the whole column is known.

Key definition: `IsBoundOf`.
Key theorems: `Aggregate.Extreme.isBoundOf_extremeOf`, `aggregateRows_bounds`.
-/
import DocumentSql.Proofs.Select.Extremes
import DocumentSql.Proofs.Store.IntegerFilter

namespace DocumentSql

/-- What is shown for the values is a bound that one of them attains: `comparison` accepts its
number beside each of theirs. -/
structure IsBoundOf (comparison : Comparison) (vs : List Scalar) (shown : Scalar) : Prop where
  eq_null_iff : shown = .null ↔ ∀ v ∈ vs, v.number? = none
  attained : shown ≠ .null → ∃ v ∈ vs, v.number? ≠ none ∧ shown.number? = v.number?
  bounds : ∀ v ∈ vs, ∀ x, v.number? = some x →
    ∃ y, shown.number? = some y ∧ comparison.accepts (y.compare? x) = true
  /-- Only a column of integers gives an integer. -/
  int_or_float : shown ≠ .null →
    OnlyIntegers vs ∧ (∃ i, shown = .int i) ∨ ¬ OnlyIntegers vs ∧ ∃ x, shown = .float x

/-! ### Comparing by places -/

namespace Comparison

/-- The comparison accepts the numbers whose keys are not greater. -/
def GoesBy (comparison : Comparison) (key : Binary64 → Int) : Prop :=
  ∀ x y, x.isNaN = false → y.isNaN = false →
    (comparison.accepts (x.compare? y) = true ↔ key x ≤ key y)

theorem accepts_iff_relates {comparison : Comparison} {x y : Binary64} (hx : x.isNaN = false)
    (hy : y.isNaN = false) :
    comparison.accepts (x.compare? y) = true ↔ comparison.Relates x.place y.place := by
  cases x with
  | nan => cases hx
  | signed s a =>
    cases y with
    | nan => cases hy
    | signed t b =>
      rw [Binary64.compare?, accepts_compare, decide_eq_true_iff]
      rfl

theorem lessEq_goesBy : lessEq.GoesBy Binary64.place :=
  fun _ _ => accepts_iff_relates

theorem greaterEq_goesBy : greaterEq.GoesBy fun x => -x.place := by
  intro x y hx hy
  rw [accepts_iff_relates hx hy]
  exact Int.neg_le_neg_iff.symm

end Comparison

/-! ### The value of MIN and MAX -/

namespace Aggregate.Extreme

variable {better : Binary64 → Binary64 → Bool} {comparison : Comparison} {key : Binary64 → Int}

/-- What is shown has the number of the value that leads. -/
theorem number?_of_leads {vs : List Scalar} {best : Binary64 × Scalar} {shown : Scalar}
    (hleads : Leads key vs best) (h : shown = best.2 ∨ shown = .float best.1) :
    shown.number? = some best.1 := by
  rcases h with rfl | rfl
  · exact hleads.1
  · exact Scalar.number?_float (Scalar.isNaN_of_number? hleads.1)

/-- If one comparison takes the better of two numbers and another allows what is no worse, the
best of the values is a bound of them for it. -/
theorem isBoundOf_extremeOf (hbetter : GoesBy better key) (hcomparison : comparison.GoesBy key)
    (vs : List Scalar) : IsBoundOf comparison vs (extremeOf better vs) := by
  rcases extremeOf_cases hbetter vs with ⟨hnull, hnone⟩ | ⟨best, hleads, hvalue⟩
  · refine ⟨iff_of_true hnull hnone, fun hne => absurd hnull hne, fun v hv x hx => ?_,
      fun hne => absurd hnull hne⟩
    rw [hnone v hv] at hx
    cases hx
  · have hnumber : (extremeOf better vs).number? = some best.1 :=
      number?_of_leads hleads (hvalue.imp (·.2.2) (·.2))
    have hne : extremeOf better vs ≠ .null := fun hnull => by
      rw [hnull] at hnumber
      cases hnumber
    refine ⟨⟨fun hnull => absurd hnull hne, fun hnone => ?_⟩, fun _ => ?_, fun v hv x hx => ?_,
      fun _ => ?_⟩
    · have hbest := hnone _ hleads.mem
      rw [hleads.1] at hbest
      cases hbest
    · exact ⟨best.2, hleads.mem, by simp [hleads.1], hnumber.trans hleads.1.symm⟩
    · refine ⟨best.1, hnumber, ?_⟩
      rw [hcomparison _ _ (Scalar.isNaN_of_number? hleads.1) (Scalar.isNaN_of_number? hx)]
      exact hleads.le v hv x hx
    · rcases hvalue with ⟨honly, ⟨i, hi⟩, hshown⟩ | ⟨hnot, hshown⟩
      · exact .inl ⟨honly, i, hshown.trans hi⟩
      · exact .inr ⟨hnot, best.1, hshown⟩

end Aggregate.Extreme

variable {scope : Scope} {groupBy : List String} {rows : List Row}

/-- **MIN and MAX are bounds that are attained**, whatever values the column of a group holds. -/
theorem aggregateRows_bounds {a : Aggregate} {comparison : Comparison}
    (ha : a.function = .min ∧ comparison = .lessEq ∨
      a.function = .max ∧ comparison = .greaterEq)
    (before : List Aggregate) {behind : List Aggregate}
    (hlast : ∀ b ∈ behind, b.outputName ≠ a.outputName) (hrows : rows ≠ []) :
    List.Forall₂ (fun group out => ∃ shown, out.get? a.outputName = some shown ∧
        IsBoundOf comparison (columnCells scope a.column group) shown)
      (groupsOf scope groupBy rows)
      (aggregateRows scope (before ++ a :: behind) groupBy rows) := by
  have hcells : a.countsRows = false := by
    rcases ha with ⟨h, -⟩ | ⟨h, -⟩ <;> simp [Aggregate.countsRows, h]
  refine (aggregateRows_values hcells before hlast hrows).imp fun group out hout =>
    ⟨_, hout, ?_⟩
  rcases ha with ⟨hmin, rfl⟩ | ⟨hmax, rfl⟩
  · rw [hmin]
    exact Aggregate.Extreme.isBoundOf_extremeOf Aggregate.Extreme.below_goesBy
      Comparison.lessEq_goesBy _
  · rw [hmax]
    exact Aggregate.Extreme.isBoundOf_extremeOf Aggregate.Extreme.above_goesBy
      Comparison.greaterEq_goesBy _

namespace Sample

/-- Values of all kinds, of which a later text changes what the integers in front of it give. -/
def readings : List Row :=
  [.ofList [("site", .text "a"), ("t", .int 3)], .ofList [("site", .text "a"), ("t", .int 5)],
    .ofList [("site", .text "a"), ("t", .text " 4.5 ")],
    .ofList [("site", .text "a"), ("t", .float .nan)], .ofList [("site", .text "b"), ("t", .int 7)],
    .ofList [("site", .text "b"), ("t", .text "n/a")],
    .ofList [("site", .text "c"), ("t", .bool true)], .ofList [("site", .text "c")],
    .ofList [("site", .text "d"), ("t", .text "-inf")]]

theorem aggregateRows_bounds_readings :
    (aggregateRows ⟨["r"], .empty⟩ [⟨.min, "t", none⟩] ["site"] readings).map (·.get? "min_t") =
        [some (.float (.ofInt 3)), some (.int 7), some .null,
          some (.float (.signed true .infinity))] ∧
      readings ≠ [] ∧
      List.Forall₂ (fun group out => ∃ shown, out.get? "min_t" = some shown ∧
          IsBoundOf .lessEq (columnCells ⟨["r"], .empty⟩ "t" group) shown)
        (groupsOf ⟨["r"], .empty⟩ ["site"] readings)
        (aggregateRows ⟨["r"], .empty⟩ [⟨.min, "t", none⟩] ["site"] readings) := by
  have hrows : readings ≠ [] := List.cons_ne_nil _ _
  exact ⟨by decide +kernel, hrows,
    aggregateRows_bounds (a := ⟨.min, "t", none⟩) (.inl ⟨rfl, rfl⟩) [] (by simp) hrows⟩

end Sample
end DocumentSql
