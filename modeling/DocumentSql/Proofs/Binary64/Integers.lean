/-
# Integers as doubles

A whole number up to `2^53` is a double, so that rounding to the nearest double
leaves it as it is: its code is given by its power of two and by its leading 53
binary digits (`Magnitude.exists_nearestCode`). Greater numbers have greater
codes, and the doubles of two integers up to `2^53` in size compare as the
integers do (`Binary64.compare?_ofInt`). Of greater integers two may have the
same double; if they have not, their doubles compare as they do
(`Binary64.compare?_ofInt_of_ne`).

Key theorems: `Magnitude.exists_nearestCode`, `Magnitude.nearest_lt_nearest`,
`Binary64.compare?_ofInt`, `Binary64.compare?_ofInt_of_ne`,
`Binary64.ofInt_ne_ofInt`.
-/
import DocumentSql.Proofs.Binary64.Rounding
import Mathlib.Data.Nat.Log
import Mathlib.Order.Compare
import Mathlib.Tactic.Ring

namespace DocumentSql

theorem roundHalfEven_mul (q : Nat) {d : Nat} (h : 0 < d) : roundHalfEven (q * d) d = q := by
  rw [roundHalfEven, Nat.mul_mod_left, Nat.mul_div_cancel q h, if_pos (by omega)]

namespace Magnitude

theorem log2_mul_two_pow {n : Nat} (h : 0 < n) (k : Nat) :
    Nat.log2 (n * 2 ^ k) = Nat.log2 n + k := by
  have hne : n * 2 ^ k ≠ 0 := Nat.mul_ne_zero (by omega) (Nat.two_pow_pos k).ne'
  rw [Nat.log2_eq_iff hne]
  have hlow := Nat.log2_self_le (Nat.pos_iff_ne_zero.mp h)
  have hhigh : n < 2 ^ (Nat.log2 n + 1) := Nat.lt_log2_self
  constructor
  · calc 2 ^ (Nat.log2 n + k) = 2 ^ Nat.log2 n * 2 ^ k := Nat.pow_add ..
      _ ≤ n * 2 ^ k := Nat.mul_le_mul_right _ hlow
  · calc n * 2 ^ k < 2 ^ (Nat.log2 n + 1) * 2 ^ k :=
          Nat.mul_lt_mul_of_pos_right hhigh (Nat.two_pow_pos _)
      _ = 2 ^ (Nat.log2 n + k + 1) := by rw [← Nat.pow_add]; congr 1; omega

/-- The leading 53 binary digits of a whole number up to `2^53` are all that it has. -/
theorem exists_leading {n : Nat} (h : 0 < n) (hmax : n ≤ 2 ^ 53) :
    ∃ q, q * 2 ^ Nat.log2 n = n * 2 ^ 52 ∧ 2 ^ 52 ≤ q ∧ q < 2 ^ 53 := by
  have hlow := Nat.log2_self_le (Nat.pos_iff_ne_zero.mp h)
  have hhigh : n < 2 ^ (Nat.log2 n + 1) := Nat.lt_log2_self
  have hpos : 0 < 2 ^ Nat.log2 n := Nat.two_pow_pos _
  have hq : ∃ q, q * 2 ^ Nat.log2 n = n * 2 ^ 52 := by
    rcases Nat.lt_or_ge (Nat.log2 n) 53 with hlog | hlog
    · have hpow : 2 ^ (52 - Nat.log2 n) * 2 ^ Nat.log2 n = 2 ^ 52 := by
        rw [← Nat.pow_add]
        congr 1
        omega
      exact ⟨n * 2 ^ (52 - Nat.log2 n), by rw [Nat.mul_assoc, hpow]⟩
    · have hge : 2 ^ 53 ≤ 2 ^ Nat.log2 n := Nat.pow_le_pow_right (by decide) hlog
      have hn : n = 2 ^ Nat.log2 n := by omega
      exact ⟨2 ^ 52, by rw [← hn, Nat.mul_comm]⟩
  obtain ⟨q, hq⟩ := hq
  refine ⟨q, hq, ?_, ?_⟩
  · apply Nat.le_of_mul_le_mul_right _ hpos
    rw [hq, Nat.mul_comm]
    exact Nat.mul_le_mul_right _ hlow
  · apply Nat.lt_of_mul_lt_mul_right (a := 2 ^ Nat.log2 n)
    calc q * 2 ^ Nat.log2 n = n * 2 ^ 52 := hq
      _ < 2 ^ (Nat.log2 n + 1) * 2 ^ 52 := Nat.mul_lt_mul_of_pos_right hhigh (Nat.two_pow_pos _)
      _ = 2 ^ 53 * 2 ^ Nat.log2 n := by rw [Nat.pow_succ]; ring

/-- From `2^53` units on every power of two has a step of its own. -/
theorem stepExponent_mul_two_pow {n : Nat} (h : 0 < n) {k : Nat} (hk : 53 ≤ k) :
    stepExponent (n * 2 ^ k) 1 = Nat.log2 n + k - 52 := by
  have hlarge : ¬ n * 2 ^ k < 2 ^ 53 := by
    rw [Nat.not_lt]
    calc 2 ^ 53 ≤ 2 ^ k := Nat.pow_le_pow_right (by decide) hk
      _ = 1 * 2 ^ k := (Nat.one_mul _).symm
      _ ≤ n * 2 ^ k := Nat.mul_le_mul_right _ h
  rw [stepExponent, Nat.div_one, Nat.one_shiftLeft, if_neg hlarge, log2_mul_two_pow h]

theorem exists_nearestCode_mul_shiftLeft {n : Nat} (h : 0 < n) (hmax : n ≤ 2 ^ 53) {k : Nat}
    (hk : 53 ≤ k) :
    ∃ q, nearestCode (n * 1 <<< k) 1 = (Nat.log2 n + k - 52) * 2 ^ 52 + q ∧
      q * 2 ^ Nat.log2 n = n * 2 ^ 52 ∧ 2 ^ 52 ≤ q ∧ q < 2 ^ 53 := by
  obtain ⟨q, hq, hlow, hhigh⟩ := exists_leading h hmax
  refine ⟨q, ?_, hq, hlow, hhigh⟩
  have hnum : n * 2 ^ k = q * 2 ^ (Nat.log2 n + k - 52) := by
    calc n * 2 ^ k = n * 2 ^ 52 * 2 ^ (k - 52) := by
          rw [Nat.mul_assoc, ← Nat.pow_add]
          congr 2
          omega
      _ = q * 2 ^ Nat.log2 n * 2 ^ (k - 52) := by rw [hq]
      _ = q * 2 ^ (Nat.log2 n + k - 52) := by
          rw [Nat.mul_assoc, ← Nat.pow_add]
          congr 2
          omega
  have hround : roundHalfEven (n * 2 ^ k) (2 ^ (Nat.log2 n + k - 52)) = q := by
    rw [hnum, roundHalfEven_mul q (Nat.two_pow_pos _)]
  rw [Nat.one_shiftLeft, nearestCode, stepExponent_mul_two_pow h hk, Nat.shiftLeft_eq,
    Nat.one_shiftLeft, hround]

/-- The code of the double that a whole number up to `2^53` is. -/
theorem exists_nearestCode {n : Nat} (h : 0 < n) (hmax : n ≤ 2 ^ 53) :
    ∃ q, nearestCode (n * one) 1 = (Nat.log2 n + 1022) * 2 ^ 52 + q ∧
      q * 2 ^ Nat.log2 n = n * 2 ^ 52 ∧ 2 ^ 52 ≤ q ∧ q < 2 ^ 53 := by
  have hexponent : (53 : Nat) ≤ 1074 := by decide
  exact exists_nearestCode_mul_shiftLeft h hmax hexponent

theorem nearestCode_zero : nearestCode (0 * one) 1 = 0 := by
  rw [Nat.zero_mul]
  decide

/-- A whole number up to `2^53` has a code that is below that of infinity. -/
theorem val_nearest {n : Nat} (hmax : n ≤ 2 ^ 53) :
    (nearest (n * one) 1).val = nearestCode (n * one) 1 := by
  have hfinite : nearestCode (n * one) 1 < (1 <<< 63) - (1 <<< 52) + 1 := by
    rcases Nat.eq_zero_or_pos n with rfl | h
    · rw [nearestCode_zero]
      decide
    · obtain ⟨q, hcode, -, -, hq⟩ := exists_nearestCode h hmax
      have hlog : Nat.log2 n < 54 := (Nat.log2_lt (by omega)).mpr (by omega)
      rw [hcode, Nat.one_shiftLeft, Nat.one_shiftLeft]
      omega
  rw [nearest, dif_pos hfinite]

/-- Greater whole numbers up to `2^53` have greater codes. -/
theorem nearest_lt_nearest {n n' : Nat} (h : n < n') (hmax : n' ≤ 2 ^ 53) :
    (nearest (n * one) 1).val < (nearest (n' * one) 1).val := by
  have hpos : 0 < n' := by omega
  rw [val_nearest (by omega), val_nearest hmax]
  obtain ⟨q', hcode', hq', hlow', -⟩ := exists_nearestCode hpos hmax
  rw [hcode']
  rcases Nat.eq_zero_or_pos n with rfl | hn
  · rw [nearestCode_zero]
    omega
  obtain ⟨q, hcode, hq, -, hhigh⟩ := exists_nearestCode hn (by omega)
  rw [hcode]
  have hlog : Nat.log2 n ≤ Nat.log2 n' := by
    rw [Nat.le_log2 (by omega)]
    exact Nat.le_trans (Nat.log2_self_le (by omega)) (Nat.le_of_lt h)
  rcases Nat.lt_or_eq_of_le hlog with hlog | hlog
  · omega
  · rw [← hlog] at hq' ⊢
    have hlt : q * 2 ^ Nat.log2 n < q' * 2 ^ Nat.log2 n := by
      rw [hq, hq']
      exact Nat.mul_lt_mul_of_pos_right h (Nat.two_pow_pos _)
    have hqq : q < q' := Nat.lt_of_mul_lt_mul_right hlt
    omega

end Magnitude

namespace Binary64

/-- The place of an integer among the doubles. -/
theorem rank_lt_rank {a b : Int} (h : a < b) (ha : a.natAbs ≤ 2 ^ 53) (hb : b.natAbs ≤ 2 ^ 53) :
    rank (decide (a < 0)) (.nearest (a.natAbs * Magnitude.one) 1) <
      rank (decide (b < 0)) (.nearest (b.natAbs * Magnitude.one) 1) := by
  have hzero : (Magnitude.nearest (0 * Magnitude.one) 1).val = 0 := by
    rw [Magnitude.val_nearest (by decide), Magnitude.nearestCode_zero]
  simp only [rank, decide_eq_true_iff]
  split
  · rename_i hneg
    split
    · rename_i hneg'
      have hlt := Magnitude.nearest_lt_nearest (show b.natAbs < a.natAbs by omega) ha
      omega
    · have hlt := Magnitude.nearest_lt_nearest (show 0 < a.natAbs by omega) ha
      omega
  · rename_i hneg
    rw [if_neg (by omega)]
    have hlt := Magnitude.nearest_lt_nearest (show a.natAbs < b.natAbs by omega) hb
    omega

/-- The doubles of integers up to `2^53` in size compare as the integers do. -/
theorem compare?_ofInt {a b : Int} (ha : a.natAbs ≤ 2 ^ 53) (hb : b.natAbs ≤ 2 ^ 53) :
    compare? (ofInt a) (ofInt b) = some (compare a b) := by
  simp only [ofInt, compare?, Option.some.injEq]
  rcases lt_trichotomy a b with h | rfl | h
  · rw [compare_lt_iff_lt.mpr h, compare_lt_iff_lt.mpr (rank_lt_rank h ha hb)]
  · rw [compare_eq_iff_eq.mpr rfl, compare_eq_iff_eq.mpr rfl]
  · rw [compare_gt_iff_gt.mpr h, compare_gt_iff_gt.mpr (rank_lt_rank h hb ha)]

/-! ### Integers of any size -/

/-- The doubles of integers are in their order, but two integers may have the same. -/
theorem rank_le_rank {a b : Int} (h : a ≤ b) :
    rank (decide (a < 0)) (.nearest (a.natAbs * Magnitude.one) 1) ≤
      rank (decide (b < 0)) (.nearest (b.natAbs * Magnitude.one) 1) := by
  have hmono : ∀ {n n' : Nat}, n ≤ n' → (Magnitude.nearest (n * Magnitude.one) 1).val ≤
      (Magnitude.nearest (n' * Magnitude.one) 1).val :=
    fun hn => Magnitude.nearest_mono 1 (Nat.mul_le_mul_right _ hn)
  simp only [rank, decide_eq_true_iff]
  split
  · split
    · have hle := hmono (show b.natAbs ≤ a.natAbs by omega)
      omega
    · omega
  · rw [if_neg (by omega)]
    have hle := hmono (show a.natAbs ≤ b.natAbs by omega)
    omega

/-- Integers at the same place among the doubles have the same double: below zero no integer is
rounded to a zero. -/
theorem ofInt_eq_of_rank_eq {a b : Int} (hle : a ≤ b)
    (h : rank (decide (a < 0)) (.nearest (a.natAbs * Magnitude.one) 1) =
      rank (decide (b < 0)) (.nearest (b.natAbs * Magnitude.one) 1)) : ofInt a = ofInt b := by
  have hsign : decide (a < 0) = decide (b < 0) := by
    by_contra hne
    have ha : a ≤ -1 := by
      by_contra hnonneg
      exact hne (by rw [decide_eq_false (by omega), decide_eq_false (by omega)])
    have hb : 0 ≤ b := by
      by_contra hneg
      exact hne (by rw [decide_eq_true (by omega), decide_eq_true (by omega)])
    have hbelow := rank_le_rank ha
    have habove := rank_le_rank hb
    have hlt := rank_lt_rank (show (-1 : Int) < 0 by decide) (by decide) (by decide)
    omega
  rw [ofInt, ofInt, ← hsign]
  rw [← hsign] at h
  have hval : (Magnitude.nearest (a.natAbs * Magnitude.one) 1).val =
      (Magnitude.nearest (b.natAbs * Magnitude.one) 1).val := by
    simp only [rank] at h
    split at h <;> omega
  rw [Fin.ext hval]

/-- Integers with different doubles compare as their doubles do. -/
theorem compare?_ofInt_of_ne {a b : Int} (h : ofInt a ≠ ofInt b) :
    compare? (ofInt a) (ofInt b) = some (compare a b) := by
  have hlt : ∀ {a b : Int}, a < b → ofInt a ≠ ofInt b →
      rank (decide (a < 0)) (.nearest (a.natAbs * Magnitude.one) 1) <
        rank (decide (b < 0)) (.nearest (b.natAbs * Magnitude.one) 1) := by
    intro a b hab hne
    exact lt_of_le_of_ne (rank_le_rank hab.le) fun he => hne (ofInt_eq_of_rank_eq hab.le he)
  simp only [ofInt, compare?, Option.some.injEq]
  rcases lt_trichotomy a b with hab | rfl | hab
  · rw [compare_lt_iff_lt.mpr hab, compare_lt_iff_lt.mpr (hlt hab h)]
  · exact absurd rfl h
  · rw [compare_gt_iff_gt.mpr hab, compare_gt_iff_gt.mpr (hlt hab h.symm)]

theorem compare?_ofInt_self (a : Int) : compare? (ofInt a) (ofInt a) = some .eq := by
  simp [ofInt, compare?]

/-- An integer below `2^53` in size has its double for itself. -/
theorem ofInt_ne_ofInt {a b : Int} (h : a ≠ b) (hb : b.natAbs < 2 ^ 53) : ofInt a ≠ ofInt b := by
  intro heq
  obtain ⟨hsign, hmagnitude⟩ := signed.inj heq
  rcases lt_or_gt_of_ne h with hab | hab
  · have hle := rank_le_rank (show a ≤ b - 1 by omega)
    have hlt := rank_lt_rank (show b - 1 < b by omega) (by omega) (by omega)
    rw [hsign, hmagnitude] at hle
    omega
  · have hle := rank_le_rank (show b + 1 ≤ a by omega)
    have hlt := rank_lt_rank (show b < b + 1 by omega) (by omega) (by omega)
    rw [hsign, hmagnitude] at hle
    omega

end Binary64
end DocumentSql
