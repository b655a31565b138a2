/-
# Rounding keeps the order

Rounding to a whole number gives the quotient or its successor, and the greater
of two numbers never the smaller result. The same holds of the codes of the
nearest magnitudes: within a power of two because the codes count its steps, and
from one to the next because no number below a power of two is rounded above it
(`Magnitude.nearestCode_mono`). A code with its step and its digits stands for
that many units (`Magnitude.unitsOfCode_add`), so rounding a whole number of
units adds at most one part in `2^53` (`Magnitude.units_nearest_le`).

Key theorems: `roundHalfEven_mono`, `Magnitude.nearestCode_mono`,
`Magnitude.nearest_mono`, `Magnitude.unitsOfCode_mono`,
`Magnitude.units_nearest_le`.
-/
import DocumentSql.Binary64.Rounding
import Mathlib.Data.Nat.Log
import Mathlib.Order.Monotone.Basic
import Mathlib.Order.MinMax
import Mathlib.Tactic.Ring

namespace DocumentSql

/-! ### Whole numbers -/

theorem div_le_roundHalfEven (n d : Nat) : n / d ≤ roundHalfEven n d := by
  unfold roundHalfEven
  split
  · exact Nat.le_refl _
  · split
    · exact Nat.le_add_right _ _
    · exact Nat.le_succ _

theorem roundHalfEven_le_div_add_one (n d : Nat) : roundHalfEven n d ≤ n / d + 1 := by
  unfold roundHalfEven
  split
  · exact Nat.le_succ _
  · split
    · omega
    · exact Nat.le_refl _

theorem roundHalfEven_mono {n n' : Nat} (d : Nat) (h : n ≤ n') :
    roundHalfEven n d ≤ roundHalfEven n' d := by
  rcases Nat.lt_or_eq_of_le (Nat.div_le_div_right (c := d) h) with hdiv | hdiv
  · exact (roundHalfEven_le_div_add_one n d).trans
      ((Nat.succ_le_of_lt hdiv).trans (div_le_roundHalfEven n' d))
  · -- with equal quotients the remainders are in order
    have hmod : n % d ≤ n' % d := by
      have hn := Nat.div_add_mod n d
      have hn' := Nat.div_add_mod n' d
      rw [← hdiv] at hn'
      omega
    unfold roundHalfEven
    rw [← hdiv]
    repeat' split
    all_goals omega

/-- Rounding adds at most a half. -/
theorem roundHalfEven_mul_le (n d : Nat) : 2 * (roundHalfEven n d * d) ≤ 2 * n + d := by
  have hn := Nat.div_add_mod' n d
  unfold roundHalfEven
  split
  · omega
  · split
    · rename_i hhalf
      have hparity : n / d % 2 * d ≤ d := by
        rcases Nat.mod_two_eq_zero_or_one (n / d) with h | h <;> rw [h] <;> omega
      rw [Nat.add_mul]
      omega
    · rw [Nat.add_mul, Nat.one_mul]
      omega

namespace Magnitude

/-! ### Codes -/

theorem stepExponent_mono {n n' : Nat} (d : Nat) (h : n ≤ n') :
    stepExponent n d ≤ stepExponent n' d := by
  have hdiv : n / d ≤ n' / d := Nat.div_le_div_right h
  unfold stepExponent
  split
  · exact Nat.zero_le _
  · rename_i hlarge
    rw [if_neg (by omega)]
    have hpos : n / d ≠ 0 := by
      intro hzero
      rw [hzero] at hlarge
      exact hlarge (by decide)
    have hlog : Nat.log2 (n / d) ≤ Nat.log2 (n' / d) :=
      (Nat.le_log2 (by omega)).mpr ((Nat.log2_self_le hpos).trans hdiv)
    omega

/-- In its step a number has at most 53 binary digits. -/
theorem div_stepExponent_lt (n d : Nat) : n / (d * 2 ^ stepExponent n d) < 2 ^ 53 := by
  rw [← Nat.div_div_eq_div_mul, Nat.div_lt_iff_lt_mul (Nat.two_pow_pos _), ← Nat.pow_add,
    stepExponent, Nat.one_shiftLeft]
  split
  · rename_i hsmall
    exact hsmall
  · calc n / d < 2 ^ (Nat.log2 (n / d) + 1) := Nat.lt_log2_self
      _ ≤ 2 ^ (53 + (Nat.log2 (n / d) - 52)) := Nat.pow_le_pow_right (by decide) (by omega)

/-- In a step above the smallest it has 53. -/
theorem le_div_stepExponent {n d : Nat} (h : 0 < stepExponent n d) :
    2 ^ 52 ≤ n / (d * 2 ^ stepExponent n d) := by
  rw [← Nat.div_div_eq_div_mul, Nat.le_div_iff_mul_le (Nat.two_pow_pos _), ← Nat.pow_add]
  unfold stepExponent at h ⊢
  rw [Nat.one_shiftLeft] at h ⊢
  split at h
  · exact absurd h (Nat.lt_irrefl 0)
  · rename_i hlarge
    have hlog : 53 ≤ Nat.log2 (n / d) := (Nat.le_log2 (by omega)).mpr (Nat.not_lt.mp hlarge)
    rw [if_neg hlarge, Nat.add_sub_cancel' (by omega)]
    exact Nat.log2_self_le (by omega)

theorem nearestCode_eq (n d : Nat) : nearestCode n d =
    stepExponent n d * 2 ^ 52 + roundHalfEven n (d * 2 ^ stepExponent n d) := by
  rw [nearestCode, Nat.shiftLeft_eq, Nat.shiftLeft_eq]

theorem roundHalfEven_stepExponent_le (n d : Nat) :
    roundHalfEven n (d * 2 ^ stepExponent n d) ≤ 2 ^ 53 :=
  (roundHalfEven_le_div_add_one n _).trans (div_stepExponent_lt n d)

theorem le_roundHalfEven_stepExponent {n d : Nat} (h : 0 < stepExponent n d) :
    2 ^ 52 ≤ roundHalfEven n (d * 2 ^ stepExponent n d) :=
  (le_div_stepExponent h).trans (div_le_roundHalfEven n _)

/-- A greater number is not rounded to a smaller code. -/
theorem nearestCode_mono {n n' : Nat} (d : Nat) (h : n ≤ n') :
    nearestCode n d ≤ nearestCode n' d := by
  rw [nearestCode_eq, nearestCode_eq]
  rcases Nat.lt_or_eq_of_le (stepExponent_mono d h) with hstep | hstep
  · have hround' := le_roundHalfEven_stepExponent (Nat.zero_lt_of_lt hstep)
    calc stepExponent n d * 2 ^ 52 + roundHalfEven n (d * 2 ^ stepExponent n d)
        ≤ stepExponent n d * 2 ^ 52 + 2 ^ 53 :=
          Nat.add_le_add_left (roundHalfEven_stepExponent_le n d) _
      _ = (stepExponent n d + 1) * 2 ^ 52 + 2 ^ 52 := by omega
      _ ≤ stepExponent n' d * 2 ^ 52 + roundHalfEven n' (d * 2 ^ stepExponent n' d) :=
          Nat.add_le_add (Nat.mul_le_mul_right _ hstep) hround'
  · rw [← hstep]
    exact Nat.add_le_add_left (roundHalfEven_mono _ h) _

/-- Codes above that of infinity are cut down to it. -/
theorem val_nearest_eq_min (n d : Nat) :
    (nearest n d).val = min (nearestCode n d) infinity.val := by
  unfold nearest
  split
  · rename_i hfinite
    exact (Nat.min_eq_left (Nat.le_of_lt_succ hfinite)).symm
  · rename_i hinfinite
    exact (Nat.min_eq_right (Nat.le_of_succ_le (Nat.not_lt.mp hinfinite))).symm

theorem nearest_mono {n n' : Nat} (d : Nat) (h : n ≤ n') :
    (nearest n d).val ≤ (nearest n' d).val := by
  rw [val_nearest_eq_min, val_nearest_eq_min]
  exact min_le_min (nearestCode_mono d h) le_rfl

/-! ### Units -/

/-- The units of a code, given by its step and by its digits in this step. -/
theorem unitsOfCode_add {k q : Nat} (hlow : k = 0 ∨ 2 ^ 52 ≤ q) (hhigh : q ≤ 2 ^ 53) :
    unitsOfCode (k * 2 ^ 52 + q) = q * 2 ^ k := by
  unfold unitsOfCode
  rw [Nat.one_shiftLeft]
  rcases Nat.lt_or_ge q (2 ^ 52) with hq | hq
  · obtain rfl := hlow.resolve_right (by omega)
    rw [if_pos (by omega)]
    omega
  rw [if_neg (by omega)]
  rcases Nat.lt_or_eq_of_le hhigh with hq' | rfl
  · have hdiv : (k * 2 ^ 52 + q) / 2 ^ 52 - 1 = k := by omega
    have hmod : 2 ^ 52 + (k * 2 ^ 52 + q) % 2 ^ 52 = q := by omega
    rw [hdiv, hmod, Nat.shiftLeft_eq]
  · -- all digits carried over: the next power of two
    have hdiv : (k * 2 ^ 52 + 2 ^ 53) / 2 ^ 52 - 1 = k + 1 := by omega
    have hmod : 2 ^ 52 + (k * 2 ^ 52 + 2 ^ 53) % 2 ^ 52 = 2 ^ 52 := by omega
    rw [hdiv, hmod, Nat.shiftLeft_eq, Nat.pow_succ]
    ring

/-- Every code is given by a step and by digits. -/
theorem exists_step (code : Nat) :
    ∃ k q, code = k * 2 ^ 52 + q ∧ (k = 0 ∨ 2 ^ 52 ≤ q) ∧ q < 2 ^ 53 := by
  refine ⟨code / 2 ^ 52 - 1, code - (code / 2 ^ 52 - 1) * 2 ^ 52, ?_, ?_, ?_⟩ <;> omega

theorem unitsOfCode_mono : Monotone unitsOfCode := by
  refine monotone_nat_of_le_succ fun code => ?_
  obtain ⟨k, q, rfl, hlow, hhigh⟩ := exists_step code
  rw [Nat.add_assoc, unitsOfCode_add hlow hhigh.le,
    unitsOfCode_add (hlow.imp id fun h => h.trans (Nat.le_succ q)) hhigh]
  exact Nat.mul_le_mul_right _ (Nat.le_succ q)

/-- Rounding a whole number of units adds at most one part in `2^53`. -/
theorem units_nearestCode_le (n : Nat) :
    unitsOfCode (nearestCode n 1) * 2 ^ 53 ≤ n * (2 ^ 53 + 1) := by
  have hround := roundHalfEven_mul_le n (1 * 2 ^ stepExponent n 1)
  rw [nearestCode_eq]
  rcases Nat.eq_zero_or_pos (stepExponent n 1) with hzero | hpos
  · have hexact : roundHalfEven n (1 * 2 ^ 0) = n := by
      rw [roundHalfEven, if_pos (by omega)]
      omega
    have hle := roundHalfEven_stepExponent_le n 1
    rw [unitsOfCode_add (.inl hzero) hle, hzero, hexact]
    omega
  · have hlow := le_roundHalfEven_stepExponent hpos
    rw [unitsOfCode_add (.inr hlow) (roundHalfEven_stepExponent_le n 1)]
    -- half a step is at most one part in `2^53`
    have hstep : 2 ^ 52 * (1 * 2 ^ stepExponent n 1) ≤ n :=
      (Nat.le_div_iff_mul_le (by simp)).mp (le_div_stepExponent hpos)
    simp only [Nat.one_mul] at hround hstep ⊢
    omega

theorem units_nearest_le (n : Nat) : (nearest n 1).units * 2 ^ 53 ≤ n * (2 ^ 53 + 1) := by
  have hval : (nearest n 1).val ≤ nearestCode n 1 := by
    rw [val_nearest_eq_min]
    exact min_le_left _ _
  exact (Nat.mul_le_mul_right _ (unitsOfCode_mono hval)).trans (units_nearestCode_le n)

end Magnitude
end DocumentSql
