/-
# Scaling stays in range

A decimal is scaled up in three roundings: of its significand, of the power of
ten, and of their product. Each adds at most one part in `2^53`, so a decimal
that is as large as the fourth magnitude below infinity, or less, does not come
out as infinity (`Magnitude.exists_scaled?`). The first digits of a decimal that
is written for one of the magnitudes below that are within the bound
(`ScaledDecimal.IsWithin.mul_power_le`).

Key definition: `Magnitude.scalingBound`.
Key theorems: `Magnitude.times_ne_infinity`, `Magnitude.exists_scaled?`,
`ScaledDecimal.IsWithin.mul_power_le`.
-/
import DocumentSql.Binary64.Scaling
import DocumentSql.Proofs.Binary64.Shortest

namespace DocumentSql
namespace Magnitude

/-- The units of the greatest finite magnitude. -/
def greatestUnits : Nat := unitsOfCode (infinity.val - 1)

/-- The units of the fourth magnitude below infinity. -/
def scalingBound : Nat := unitsOfCode (infinity.val - 4)

theorem nearestCode_greatestUnits :
    nearestCode (greatestUnits * one) one = infinity.val - 1 := by decide +kernel

/-- Two roundings lead from one bound to the other at most. -/
theorem scalingBound_mul_le :
    scalingBound * ((2 ^ 53 + 1) * (2 ^ 53 + 1)) ≤ greatestUnits * (2 ^ 53 * 2 ^ 53) := by
  decide +kernel

theorem scalingBound_lt : scalingBound < Decimal.power (greatestTen + 1) * one := by decide +kernel

/-- A product is finite if it is no greater than the greatest finite magnitude. -/
theorem times_ne_infinity {a b : Magnitude} (h : a.units * b.units ≤ greatestUnits * one) :
    a.times b ≠ infinity := by
  intro hinfinity
  have hcode : (a.times b).val ≤ infinity.val - 1 := by
    rw [times, val_nearest_eq_min, ← nearestCode_greatestUnits]
    exact (min_le_left _ _).trans (nearestCode_mono one h)
  have hpos : 0 < infinity.val := by decide
  rw [hinfinity] at hcode
  omega

theorem power_mono {k k' : Nat} (h : k ≤ k') : Decimal.power k ≤ Decimal.power k' :=
  Nat.pow_le_pow_right (by decide) h

theorem exists_scaleUp? {n k : Nat} (h : n * Decimal.power k * one ≤ scalingBound) :
    ∃ m, (ofNat n).scaleUp? k = some m := by
  unfold scaleUp?
  split
  · exact ⟨_, rfl⟩
  rename_i hzero
  have hpos : 0 < n := by
    rw [Nat.pos_iff_ne_zero]
    rintro rfl
    exact hzero (by decide +kernel)
  have hsmall : k ≤ greatestTen := by
    by_contra hlarge
    have hten : Decimal.power (greatestTen + 1) * one ≤ scalingBound :=
      calc Decimal.power (greatestTen + 1) * one
          ≤ Decimal.power k * one := Nat.mul_le_mul_right _ (power_mono (by omega))
        _ ≤ n * Decimal.power k * one :=
            Nat.mul_le_mul_right _ (Nat.le_mul_of_pos_left _ hpos)
        _ ≤ scalingBound := h
    exact absurd hten (Nat.not_le.mpr scalingBound_lt)
  rw [if_neg (Nat.not_lt.mpr hsmall)]
  have hunits : (ofNat n).units * (tenPower k).units ≤ greatestUnits * one := by
    have hn := units_nearest_le (n * one)
    have hk := units_nearest_le (Decimal.power k * one)
    refine Nat.le_of_mul_le_mul_right ?_ (show 0 < 2 ^ 53 * 2 ^ 53 by decide)
    calc (ofNat n).units * (tenPower k).units * (2 ^ 53 * 2 ^ 53)
        = ((ofNat n).units * 2 ^ 53) * ((tenPower k).units * 2 ^ 53) := by ring
      _ ≤ (n * one * (2 ^ 53 + 1)) * (Decimal.power k * one * (2 ^ 53 + 1)) :=
          Nat.mul_le_mul hn hk
      _ = n * Decimal.power k * one * (one * ((2 ^ 53 + 1) * (2 ^ 53 + 1))) := by ring
      _ ≤ scalingBound * (one * ((2 ^ 53 + 1) * (2 ^ 53 + 1))) := Nat.mul_le_mul_right _ h
      _ = scalingBound * ((2 ^ 53 + 1) * (2 ^ 53 + 1)) * one := by ring
      _ ≤ greatestUnits * (2 ^ 53 * 2 ^ 53) * one := Nat.mul_le_mul_right _ scalingBound_mul_le
      _ = greatestUnits * one * (2 ^ 53 * 2 ^ 53) := by ring
  exact ⟨_, if_neg (times_ne_infinity hunits)⟩

/-- A decimal within the bound can be scaled, up or down. -/
theorem exists_scaled? {n : Nat} {e : Int} (h : n * Decimal.power e.toNat * one ≤ scalingBound) :
    ∃ m, scaled? n e = some m := by
  unfold scaled?
  split
  · exact ⟨_, rfl⟩
  · exact exists_scaleUp? h

end Magnitude

open Magnitude

theorem ScaledDecimal.IsWithin.le_scalingBound {d : ScaledDecimal} {code : Nat}
    (h : d.IsWithin code) (hcode : code + 1 ≤ infinity.val - 4) :
    d.significand * gridStep d.exponent ≤ scalingBound * gridScale d.exponent := by
  have hle : unitsOfCode code ≤ scalingBound := unitsOfCode_mono ((Nat.le_succ code).trans hcode)
  have hnext : unitsOfCode (code + 1) ≤ scalingBound := unitsOfCode_mono hcode
  refine Nat.le_of_mul_le_mul_left ?_ (show 0 < 2 by decide)
  calc 2 * (d.significand * gridStep d.exponent)
      = 2 * d.significand * gridStep d.exponent := (Nat.mul_assoc ..).symm
    _ ≤ (unitsOfCode code + unitsOfCode (code + 1)) * gridScale d.exponent := h.le
    _ ≤ (scalingBound + scalingBound) * gridScale d.exponent :=
        Nat.mul_le_mul_right _ (Nat.add_le_add hle hnext)
    _ = 2 * (scalingBound * gridScale d.exponent) := by ring

/-- The digits of a decimal without the last ones, which count as zeros, are within the bound. -/
theorem ScaledDecimal.IsWithin.mul_power_le {d : ScaledDecimal} {code : Nat}
    (h : d.IsWithin code) (hcode : code + 1 ≤ infinity.val - 4) {n left : Nat}
    (hn : n * Decimal.power left ≤ d.significand) (hsize : n < UInt64.size) :
    n * Decimal.power (d.exponent + left).toNat * one ≤ scalingBound := by
  rcases lt_or_ge (d.exponent + left) 0 with hneg | hnonneg
  · have hsmall : UInt64.size * one ≤ scalingBound := by decide +kernel
    rw [Int.toNat_of_nonpos hneg.le]
    exact (Nat.mul_le_mul_right _ (Nat.le_trans (Nat.mul_one n).le hsize.le)).trans hsmall
  · have hpower : Decimal.power (d.exponent + left).toNat * gridScale d.exponent =
        Decimal.power left * Decimal.power d.exponent.toNat := by
      have hexponent : (d.exponent + left).toNat + (-d.exponent).toNat =
          left + d.exponent.toNat := by omega
      simp only [gridScale, Decimal.power, Nat.pow_eq, ← pow_add, hexponent]
    refine Nat.le_of_mul_le_mul_right ?_ (gridScale_pos d.exponent)
    calc n * Decimal.power (d.exponent + left).toNat * one * gridScale d.exponent
        = n * (Decimal.power (d.exponent + left).toNat * gridScale d.exponent) * one := by ring
      _ = n * Decimal.power left * gridStep d.exponent := by rw [hpower, gridStep]; ring
      _ ≤ d.significand * gridStep d.exponent := Nat.mul_le_mul_right _ hn
      _ ≤ scalingBound * gridScale d.exponent := h.le_scalingBound hcode

end DocumentSql
