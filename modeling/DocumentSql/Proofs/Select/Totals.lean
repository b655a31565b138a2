/-
# Sums of integers

SUM keeps an exact total beside a rounded one. The exact total is there as long
as every number so far is an integer and every total so far fits 64 bits; it is
lost with the first number that is something else or that does not fit, and
does not come back, even if a later total would fit again
(`Aggregate.exact_foldl_add_eq_some_iff`). So SUM is the sum of the integers, or
it is a double (`aggregateRows_sum`).

Key definitions: `integers`, `AddsUp`, `IsSumOf`.
Key theorems: `Aggregate.exact_foldl_add_eq_some_iff`, `aggregateRows_sum`.
-/
import DocumentSql.Proofs.Select.GroupValues
import DocumentSql.Proofs.Scalar

namespace DocumentSql

/-- The value of an integer. -/
def Scalar.integer? : Scalar → Option Int
  | .int i => some i.toInt
  | _ => none

/-- The integers among the values, in order. -/
def integers (vs : List Scalar) : List Int := vs.filterMap Scalar.integer?

/-- Every number is an integer, and 64 bits hold every total on the way. -/
structure AddsUp (vs : List Scalar) : Prop where
  onlyIntegers : OnlyIntegers vs
  fits : ∀ firsts, firsts <+: integers vs → -2 ^ 63 ≤ firsts.sum ∧ firsts.sum < 2 ^ 63

theorem integers_concat (vs : List Scalar) (v : Scalar) :
    integers (vs ++ [v]) = integers vs ++ v.integer?.toList := by
  unfold integers
  rw [List.filterMap_append]
  cases h : v.integer? <;> simp [h]

/-! ### One more value -/

theorem AddsUp.nil : AddsUp [] where
  onlyIntegers v hv := nomatch hv
  fits firsts hfirsts := by
    obtain rfl := List.prefix_nil.mp hfirsts
    decide

/-- A value that is no number does not count. -/
theorem addsUp_concat_of_number?_eq_none {v : Scalar} (hv : v.number? = none) (vs : List Scalar) :
    (AddsUp (vs ++ [v]) ↔ AddsUp vs) ∧ integers (vs ++ [v]) = integers vs := by
  have hint : v.integer? = none := by
    cases v with
    | int i => cases hv
    | null | bool | float | text => rfl
  have hintegers : integers (vs ++ [v]) = integers vs := by
    rw [integers_concat, hint, Option.toList_none, List.append_nil]
  have honly : OnlyIntegers (vs ++ [v]) ↔ OnlyIntegers vs := by
    rw [onlyIntegers_concat]
    exact and_iff_left fun hnumber => absurd hv hnumber
  refine ⟨⟨fun h => ?_, fun h => ?_⟩, hintegers⟩
  · exact ⟨honly.mp h.onlyIntegers, hintegers ▸ h.fits⟩
  · exact ⟨honly.mpr h.onlyIntegers, hintegers.symm ▸ h.fits⟩

theorem addsUp_concat_int (vs : List Scalar) (i : Int64) :
    AddsUp (vs ++ [.int i]) ↔ AddsUp vs ∧
      -2 ^ 63 ≤ (integers vs).sum + i.toInt ∧ (integers vs).sum + i.toInt < 2 ^ 63 := by
  have hintegers : integers (vs ++ [.int i]) = integers vs ++ [i.toInt] := integers_concat vs _
  have hsum : (integers vs ++ [i.toInt]).sum = (integers vs).sum + i.toInt := by
    rw [List.sum_append, List.sum_singleton]
  constructor
  · intro h
    refine ⟨⟨(onlyIntegers_concat.mp h.onlyIntegers).1, fun firsts hfirsts => ?_⟩, ?_⟩
    · apply h.fits
      rw [hintegers]
      exact hfirsts.trans (List.prefix_append _ _)
    · rw [← hsum, ← hintegers]
      exact h.fits _ (List.prefix_refl _)
  · rintro ⟨h, hfits⟩
    refine ⟨onlyIntegers_concat.mpr ⟨h.onlyIntegers, fun _ => ⟨i, rfl⟩⟩, fun firsts hfirsts => ?_⟩
    rw [hintegers, List.prefix_concat_iff] at hfirsts
    rcases hfirsts with rfl | hfirsts
    · rw [hsum]
      exact hfits
    · exact h.fits firsts hfirsts

/-- A number that is no integer ends it. -/
theorem not_addsUp_concat {v : Scalar} (hv : v.number? ≠ none) (hint : ∀ i, v ≠ .int i)
    (vs : List Scalar) : ¬ AddsUp (vs ++ [v]) := by
  intro h
  obtain ⟨i, hi⟩ := (onlyIntegers_concat.mp h.onlyIntegers).2 hv
  exact hint i hi

theorem AddsUp.exists_toInt_eq {vs : List Scalar} (h : AddsUp vs) :
    ∃ total : Int64, total.toInt = (integers vs).sum := by
  obtain ⟨hlow, hhigh⟩ := h.fits _ (List.prefix_refl _)
  exact ⟨.ofInt (integers vs).sum, Int64.toInt_ofInt_of_le hlow hhigh⟩

namespace Aggregate

theorem addExact_eq_some_iff (a b sum : Int64) :
    addExact a b = some sum ↔ sum.toInt = a.toInt + b.toInt := by
  have hmin : Int64.minValue.toInt = -2 ^ 63 := by decide
  have hmax : Int64.maxValue.toInt = 2 ^ 63 - 1 := by decide
  have hlow : -2 ^ 63 ≤ sum.toInt := sum.le_toInt
  have hhigh : sum.toInt < 2 ^ 63 := sum.toInt_lt
  unfold addExact Scalar.int64?
  split
  · rw [Option.some.injEq]
    constructor
    · rintro rfl
      apply Int64.toInt_ofInt_of_le <;> omega
    · intro h
      rw [← h, Int64.ofInt_toInt]
  · simp only [reduceCtorEq, false_iff]
    omega

namespace Total

theorem add_of_number?_eq_none {v : Scalar} (hv : v.number? = none) (t : Total) : t.add v = t := by
  simp only [add, hv]

theorem exact_add_int (t : Total) (i : Int64) :
    (t.add (.int i)).exact = t.exact.bind fun sum => addExact sum i := by
  unfold add
  cases t.exact <;> simp [Scalar.number?]

theorem exact_add_of_ne_int {v : Scalar} (hv : v.number? ≠ none) (hint : ∀ i, v ≠ .int i)
    (t : Total) : (t.add v).exact = none := by
  obtain ⟨x, hx⟩ := Option.ne_none_iff_exists'.mp hv
  unfold add
  rw [hx]
  cases v with
  | int i => exact absurd rfl (hint i)
  | null | bool | float | text => simp

end Total

/-- The exact total is there if the values add up, and then it is their sum. -/
theorem exact_foldl_add_eq_some_iff (vs : List Scalar) (sum : Int64) :
    (vs.foldl Total.add .zero).exact = some sum ↔ AddsUp vs ∧ sum.toInt = (integers vs).sum := by
  induction vs using List.reverseRecOn generalizing sum with
  | nil =>
    have hzero : (0 : Int64) = sum ↔ sum.toInt = 0 := by
      rw [eq_comm, ← Int64.toInt_inj]
      rfl
    simpa [Total.zero, integers, AddsUp.nil] using hzero
  | append_singleton vs v ih =>
    rw [List.foldl_concat]
    by_cases hv : v.number? = none
    · obtain ⟨haddsUp, hintegers⟩ := addsUp_concat_of_number?_eq_none hv vs
      rw [Total.add_of_number?_eq_none hv, haddsUp, hintegers]
      exact ih sum
    · by_cases hint : ∃ i, v = .int i
      · obtain ⟨i, rfl⟩ := hint
        have hsum : (integers (vs ++ [.int i])).sum = (integers vs).sum + i.toInt := by
          simp [integers_concat, Scalar.integer?]
        have hlow : -2 ^ 63 ≤ sum.toInt := sum.le_toInt
        have hhigh : sum.toInt < 2 ^ 63 := sum.toInt_lt
        simp only [Total.exact_add_int, Option.bind_eq_some_iff, ih, addExact_eq_some_iff,
          addsUp_concat_int, hsum]
        -- the total before is the sum of `vs`, which is all that the next one depends on
        constructor
        · rintro ⟨total, ⟨hadds, htotal⟩, hadd⟩
          rw [htotal] at hadd
          refine ⟨⟨hadds, ?_, ?_⟩, hadd⟩ <;> omega
        · rintro ⟨⟨hadds, -⟩, hadd⟩
          obtain ⟨total, htotal⟩ := hadds.exists_toInt_eq
          exact ⟨total, ⟨hadds, htotal⟩, htotal ▸ hadd⟩
      · -- from here on there is no exact total, and no sum of integers either
        have hint : ∀ i, v ≠ .int i := fun i hi => hint ⟨i, hi⟩
        rw [Total.exact_add_of_ne_int hv hint]
        simp [not_addsUp_concat hv hint vs]

/-- The rounded total adds all numbers in order. -/
theorem rounded_foldl_add (vs : List Scalar) :
    (vs.foldl Total.add .zero).rounded =
      (vs.filterMap Scalar.number?).foldl Binary64.add .zero := by
  induction vs using List.reverseRecOn with
  | nil => rfl
  | append_singleton vs v ih =>
    rw [List.foldl_concat, List.filterMap_append, List.foldl_append, ← ih]
    unfold Total.add
    cases h : v.number? <;> simp [h]

end Aggregate

/-! ### The value that is shown -/

/-- The value of SUM: the sum of the integers if the values add up, and otherwise the total of all
numbers as doubles. -/
structure IsSumOf (vs : List Scalar) (shown : Scalar) : Prop where
  int_iff : (∃ sum, shown = .int sum) ↔ AddsUp vs
  toInt_eq : ∀ sum, shown = .int sum → sum.toInt = (integers vs).sum
  float_of_not : ¬ AddsUp vs →
    shown = .float ((vs.filterMap Scalar.number?).foldl Binary64.add .zero)

theorem Aggregate.isSumOf_sumOf (vs : List Scalar) : IsSumOf vs (sumOf vs) := by
  cases hexact : (vs.foldl Total.add .zero).exact with
  | some sum =>
    have hshown : sumOf vs = .int sum := by simp only [sumOf, Total.toScalar, hexact]
    obtain ⟨hadds, hsum⟩ := (exact_foldl_add_eq_some_iff vs sum).mp hexact
    rw [hshown]
    refine ⟨⟨fun _ => hadds, fun _ => ⟨sum, rfl⟩⟩, ?_, fun hnot => absurd hadds hnot⟩
    rintro _ ⟨rfl⟩
    exact hsum
  | none =>
    have hshown : sumOf vs =
        .float ((vs.filterMap Scalar.number?).foldl Binary64.add .zero) := by
      simp only [sumOf, Total.toScalar, hexact, rounded_foldl_add]
    have hnot : ¬ AddsUp vs := by
      intro hadds
      obtain ⟨sum, hsum⟩ := hadds.exists_toInt_eq
      rw [(exact_foldl_add_eq_some_iff vs sum).mpr ⟨hadds, hsum⟩] at hexact
      cases hexact
    have hfloat : ∀ sum, sumOf vs ≠ .int sum := by simp [hshown]
    refine ⟨⟨?_, fun hadds => absurd hadds hnot⟩, ?_, fun _ => hshown⟩
    · rintro ⟨sum, h⟩
      exact absurd h (hfloat sum)
    · intro sum h
      exact absurd h (hfloat sum)

variable {scope : Scope} {groupBy : List String} {rows : List Row}

/-- SUM of a column is exact, or it is a double. -/
theorem aggregateRows_sum {a : Aggregate} (ha : a.function = .sum) (before : List Aggregate)
    {behind : List Aggregate} (hlast : ∀ b ∈ behind, b.outputName ≠ a.outputName)
    (hrows : rows ≠ []) :
    List.Forall₂ (fun group out => ∃ shown, out.get? a.outputName = some shown ∧
        IsSumOf (columnCells scope a.column group) shown)
      (groupsOf scope groupBy rows)
      (aggregateRows scope (before ++ a :: behind) groupBy rows) := by
  have hcells : a.countsRows = false := by
    rw [Aggregate.countsRows, ha]
    rfl
  refine (aggregateRows_values hcells before hlast hrows).imp fun group out hout => ?_
  rw [ha] at hout
  exact ⟨_, hout, Aggregate.isSumOf_sumOf _⟩

namespace Sample

/-- Two payments that do not fit 64 bits together, and one that takes back the first. -/
def payments : List Row :=
  [.ofList [("paid", .int 9223372036854775807), ("by", .text "Ann")],
    .ofList [("paid", .text "none"), ("by", .text "Bo")],
    .ofList [("paid", .int 1), ("by", .text "Ann")],
    .ofList [("paid", .int (-9223372036854775807)), ("by", .text "Ann")]]

def paymentScope : Scope := ⟨["payments"], .empty⟩

/-- The total that was lost does not come back. -/
theorem aggregateRows_sum_payments :
    aggregateRows paymentScope [⟨.sum, "paid", some "total"⟩] ["by"] payments =
        [.ofList [("by", .text "Ann"), ("total", .float .zero)],
          .ofList [("by", .text "Bo"), ("total", .int 0)]] ∧
      payments ≠ [] ∧
      List.Forall₂ (fun group out => ∃ shown, out.get? "total" = some shown ∧
          IsSumOf (columnCells paymentScope "paid" group) shown)
        (groupsOf paymentScope ["by"] payments)
        (aggregateRows paymentScope [⟨.sum, "paid", some "total"⟩] ["by"] payments) := by
  have hrows : payments ≠ [] := by simp [payments]
  have hlast : ∀ b ∈ ([] : List Aggregate), b.outputName ≠ "total" := by simp
  exact ⟨by decide +kernel, hrows,
    aggregateRows_sum (a := ⟨.sum, "paid", some "total"⟩) rfl [] hlast hrows⟩

end Sample
end DocumentSql
