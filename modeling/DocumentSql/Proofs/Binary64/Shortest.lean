/-
# The digits of a double are not beyond its neighbour

The decimal with which a magnitude is written is not zero, and not above the
midpoint to the next magnitude (`ScaledDecimal.IsWithin`). Every decimal that
identifies the magnitude is so, and so is its exact value; trailing zeros can go
to the exponent.

Key definition: `ScaledDecimal.IsWithin`.
Key theorem: `isWithin_shortest`.
-/
import DocumentSql.Binary64.Shortest
import DocumentSql.Proofs.Binary64.Rounding

namespace DocumentSql

namespace Magnitude

theorem unitsOfCode_pos {code : Nat} (h : 0 < code) : 0 < unitsOfCode code := by
  have hone : unitsOfCode 1 = 1 := by decide
  have hle : unitsOfCode 1 ≤ unitsOfCode code := unitsOfCode_mono h
  omega

theorem gridScale_pos (exponent : Int) : 0 < gridScale exponent :=
  Nat.pow_pos (by decide)

theorem gridStep_of_nonpos {e : Int} (h : e ≤ 0) : gridStep e = one := by
  rw [gridStep, Int.toNat_of_nonpos h]
  exact Nat.one_mul one

theorem gridScale_of_nonneg {e : Int} (h : 0 ≤ e) : gridScale e = 1 := by
  rw [gridScale, Int.toNat_of_nonpos (by omega)]
  rfl

/-- Below zero the next finer grid has ten times the scale. -/
theorem gridScale_of_neg {e : Int} (h : e < 0) : gridScale e = 10 * gridScale (e + 1) := by
  have hexponent : (-e).toNat = (-(e + 1)).toNat + 1 := by omega
  rw [gridScale, hexponent, Decimal.power, Nat.pow_eq, pow_succ']
  rfl

/-- From zero on the next coarser grid has ten times the step. -/
theorem gridStep_succ {e : Int} (h : 0 ≤ e) : gridStep (e + 1) = 10 * gridStep e := by
  have hexponent : (e + 1).toNat = e.toNat + 1 := by omega
  rw [gridStep, hexponent, Decimal.power, Nat.pow_eq, pow_succ', gridStep, Decimal.power,
    Nat.pow_eq, Nat.mul_assoc]

end Magnitude

namespace ScaledDecimal

open Magnitude

/-- A decimal that is not zero, and not above the midpoint between a code and the next. -/
structure IsWithin (d : ScaledDecimal) (code : Nat) : Prop where
  pos : 0 < d.significand
  le : 2 * d.significand * gridStep d.exponent ≤
    (unitsOfCode code + unitsOfCode (code + 1)) * gridScale d.exponent

variable {code : Nat} {d : ScaledDecimal}

theorem isWithin_of_identifies (hcode : 0 < code)
    (h : identifies code d.significand d.exponent = true) : d.IsWithin code := by
  have hlow : 0 < (unitsOfCode (code - 1) + unitsOfCode code) * gridScale d.exponent :=
    Nat.mul_pos (Nat.add_pos_right _ (unitsOfCode_pos hcode)) (gridScale_pos _)
  have hends : (unitsOfCode (code - 1) + unitsOfCode code) * gridScale d.exponent ≤
      2 * d.significand * gridStep d.exponent ∧ 2 * d.significand * gridStep d.exponent ≤
        (unitsOfCode code + unitsOfCode (code + 1)) * gridScale d.exponent := by
    unfold identifies at h
    split at h
    · simpa using h
    · have hlt := by simpa using h
      exact ⟨hlt.1.le, hlt.2.le⟩
  refine ⟨?_, hends.2⟩
  by_contra hzero
  rw [Nat.eq_zero_of_not_pos hzero, Nat.mul_zero, Nat.zero_mul] at hends
  omega

theorem isWithin_of_onGrid? {tie : Tie} {exponent : Int} (hcode : 0 < code)
    (h : onGrid? tie code exponent = some d) : d.IsWithin code := by
  -- whichever of the two points is taken, it identifies the magnitude
  have hpoint : identifies code d.significand d.exponent = true := by
    unfold onGrid? at h
    simp only at h
    generalize unitsOfCode code * gridScale exponent / gridStep exponent = below at h
    split at h
    · rename_i hbelow habove
      obtain rfl := Option.some.inj h
      have hparity : identifies code (below + below % 2) exponent = true := by
        rcases Nat.mod_two_eq_zero_or_one below with heven | hodd
        · rw [heven, Nat.add_zero, hbelow]
        · rw [hodd, habove]
      split
      · exact hbelow
      · exact habove
      · exact habove
      · exact hparity
    · rename_i hbelow _
      obtain rfl := Option.some.inj h
      exact hbelow
    · rename_i _ habove
      obtain rfl := Option.some.inj h
      exact habove
    · cases h
  exact isWithin_of_identifies hcode hpoint

theorem isWithin_of_searchGrids {tie : Tie} {scale : Int} {count : Nat} (hcode : 0 < code)
    (h : searchGrids tie code scale count = some d) : d.IsWithin code := by
  fun_induction searchGrids tie code scale count with
  | case1 count _ ih =>
    cases hgrid : onGrid? tie code (scale - count) with
    | some found =>
      rw [hgrid] at h
      exact isWithin_of_onGrid? hcode (hgrid.trans h)
    | none =>
      rw [hgrid] at h
      exact ih h
  | case2 => cases h

/-- A zero at the end can go to the exponent. -/
theorem IsWithin.strip (h : d.IsWithin code) (hzero : d.significand % 10 = 0) :
    IsWithin ⟨d.significand / 10, d.exponent + 1⟩ code := by
  have hten : d.significand = 10 * (d.significand / 10) := by omega
  have hpos := h.pos
  refine ⟨show 0 < d.significand / 10 by omega, ?_⟩
  have hle := h.le
  rw [hten] at hle
  rcases lt_or_ge d.exponent 0 with hneg | hnonneg
  · rw [gridScale_of_neg hneg, gridStep_of_nonpos hneg.le] at hle
    rw [gridStep_of_nonpos (show d.exponent + 1 ≤ 0 by omega)]
    refine Nat.le_of_mul_le_mul_left ?_ (show 0 < 10 by decide)
    calc 10 * (2 * (d.significand / 10) * one)
        = 2 * (10 * (d.significand / 10)) * one := by ring
      _ ≤ _ := hle
      _ = _ := by ring
  · rw [gridScale_of_nonneg hnonneg] at hle
    rw [gridStep_succ hnonneg, gridScale_of_nonneg (show 0 ≤ d.exponent + 1 by omega)]
    calc 2 * (d.significand / 10) * (10 * gridStep d.exponent)
        = 2 * (10 * (d.significand / 10)) * gridStep d.exponent := by ring
      _ ≤ _ := hle

theorem IsWithin.stripZeros : ∀ (limit : Nat) {d : ScaledDecimal}, d.IsWithin code →
    (d.stripZeros limit).IsWithin code
  | 0, _, h => h
  | limit + 1, d, h => by
    rw [ScaledDecimal.stripZeros]
    split
    · rename_i hzero
      exact (h.strip hzero).stripZeros limit
    · exact h

/-- The exact value is below the midpoint to the next magnitude. -/
theorem isWithin_of_units {m : Magnitude} (h : 0 < m.val) {factor : Nat} {exponent : Int}
    (hfactor : factor * gridStep exponent = gridScale exponent) :
    IsWithin ⟨m.units * factor, exponent⟩ m.val := by
  have hpos : 0 < factor := by
    by_contra hzero
    have hscale := gridScale_pos exponent
    rw [← hfactor, Nat.eq_zero_of_not_pos hzero, Nat.zero_mul] at hscale
    exact absurd hscale (Nat.lt_irrefl 0)
  refine ⟨Nat.mul_pos (unitsOfCode_pos h) hpos, ?_⟩
  have hnext : unitsOfCode m.val ≤ unitsOfCode (m.val + 1) := unitsOfCode_mono (Nat.le_succ _)
  calc 2 * (m.units * factor) * gridStep exponent
      = 2 * m.units * (factor * gridStep exponent) := by ring
    _ = (unitsOfCode m.val + unitsOfCode m.val) * gridScale exponent := by
        rw [hfactor, units]
        ring
    _ ≤ (unitsOfCode m.val + unitsOfCode (m.val + 1)) * gridScale exponent :=
        Nat.mul_le_mul_right _ (Nat.add_le_add_left hnext _)

end ScaledDecimal

theorem isWithin_shortest (tie : Tie) {m : Magnitude} (h : 0 < m.val) :
    (shortest tie m).IsWithin m.val := by
  unfold shortest
  refine ScaledDecimal.IsWithin.stripZeros _ ?_
  cases hsearch : Magnitude.searchGrids tie m.val (Magnitude.decimalScale m.units) 1 with
  | some d => exact ScaledDecimal.isWithin_of_searchGrids h hsearch
  | none => exact ScaledDecimal.isWithin_of_units h (by decide +kernel)

end DocumentSql
