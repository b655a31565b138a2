/-
# Words that differ in case only

Being the same word up to case is being equal in capitals, so it carries every
comparison with a third word along (`sameWord_congr`). A word that is the same
as one of capitals consists of letters (`isAlpha_of_sameWord`). Letters and
digits of ASCII are known by the ranges of their codes (`isUpper_iff` and on).

Key theorems: `Text.sameWord_congr`, `Text.isAlpha_of_sameWord`.
-/
import DocumentSql.Text.Case

namespace DocumentSql
namespace Text

/-- A third word is the same as both or as neither. -/
theorem sameWord_congr {a b : String} (h : sameWord a b = true) (c : String) :
    sameWord a c = sameWord b c := by
  rw [sameWord, beq_iff_eq] at h
  rw [sameWord, h, sameWord]

/-! ### Characters by their codes -/

variable {c : Char}

theorem isUpper_iff : c.isUpper = true ↔ 65 ≤ c.toNat ∧ c.toNat ≤ 90 := by
  change decide (c.val ≥ 'A'.val ∧ c.val ≤ 'Z'.val) = true ↔ _
  rw [decide_eq_true_iff]
  exact Iff.rfl

theorem isLower_iff : c.isLower = true ↔ 97 ≤ c.toNat ∧ c.toNat ≤ 122 := by
  change (decide (c.val ≥ 'a'.val) && decide (c.val ≤ 'z'.val)) = true ↔ _
  rw [Bool.and_eq_true, decide_eq_true_iff, decide_eq_true_iff]
  exact Iff.rfl

theorem isDigit_iff : c.isDigit = true ↔ 48 ≤ c.toNat ∧ c.toNat ≤ 57 := by
  change (decide (c.val ≥ '0'.val) && decide (c.val ≤ '9'.val)) = true ↔ _
  rw [Bool.and_eq_true, decide_eq_true_iff, decide_eq_true_iff]
  exact Iff.rfl

theorem isAlpha_iff : c.isAlpha = true ↔ c.isUpper = true ∨ c.isLower = true := by
  change (c.isUpper || c.isLower) = true ↔ _
  rw [Bool.or_eq_true]

theorem isAlphanum_iff : c.isAlphanum = true ↔ c.isAlpha = true ∨ c.isDigit = true := by
  change (c.isAlpha || c.isDigit) = true ↔ _
  rw [Bool.or_eq_true]

theorem isAlpha_of_isUpper_toUpper (h : c.toUpper.isUpper = true) : c.isAlpha = true := by
  rw [isAlpha_iff]
  by_cases hl : c.isLower = true
  · exact .inr hl
  · have hc : c.toUpper = c := by
      unfold Char.toUpper
      exact dif_neg fun hr => hl (isLower_iff.mpr hr)
    exact .inl (hc ▸ h)

theorem isUpper_toUpper (h : c.isUpper = true) : c.toUpper = c := by
  have hrange := isUpper_iff.mp h
  unfold Char.toUpper
  refine dif_neg fun hl => ?_
  have hlow : 97 ≤ c.toNat := hl.1
  omega

/-- A word that is the same as one of capitals has letters only. -/
theorem isAlpha_of_sameWord {a b : String} (h : sameWord a b = true)
    (hb : ∀ d ∈ b.toList, d.isUpper = true) (hc : c ∈ a.toList) :
    c.isAlpha = true := by
  rw [sameWord, beq_iff_eq, upper, upper, String.ofList_inj] at h
  have hm : c.toUpper ∈ b.toList.map Char.toUpper := h ▸ List.mem_map_of_mem hc
  obtain ⟨d, hd, he⟩ := List.mem_map.mp hm
  rw [isUpper_toUpper (hb d hd)] at he
  exact isAlpha_of_isUpper_toUpper (he ▸ hb d hd)

theorem length_eq_of_sameWord {a b : String} (h : sameWord a b = true) :
    a.toList.length = b.toList.length := by
  rw [sameWord, beq_iff_eq, upper, upper, String.ofList_inj] at h
  simpa using congrArg List.length h

end Text
end DocumentSql
