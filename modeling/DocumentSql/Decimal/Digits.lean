/-
# Decimal digits

Natural numbers and integers as texts of the ten ASCII digits, and back. No
other digits of Unicode are read.

Key definitions: `Decimal.digits`, `Decimal.value`, `Decimal.intText`,
`Decimal.natural?`.
Key theorem: `Decimal.value_digits`.
-/

namespace DocumentSql
namespace Decimal

/-- Whether `c` is one of the characters `0` to `9`. -/
def isDigit (c : Char) : Bool := '0' ≤ c && c ≤ '9'

/-- The digit for `n`, which is below ten. -/
def digitChar (n : Nat) : Char := Char.ofNat (48 + n)

/-- The number that a digit stands for. -/
def digitValue (c : Char) : Nat := c.toNat - 48

/-- The digits of `n`, without leading zeros; `0` for zero. -/
def digits (n : Nat) : List Char :=
  if n < 10 then [digitChar n] else digits (n / 10) ++ [digitChar (n % 10)]

/-- The number written by a list of digits. -/
def value (ds : List Char) : Nat :=
  ds.foldl (fun acc c => 10 * acc + digitValue c) 0

/-- The `n`th power of ten. -/
def power (n : Nat) : Nat := Nat.pow 10 n

/-- The decimal text of a natural number. -/
def natText (n : Nat) : String := String.ofList (digits n)

/-- The characters of an integer: a minus sign, if it is negative, and its digits. -/
def intChars (i : Int) : List Char :=
  if i < 0 then '-' :: digits i.natAbs else digits i.natAbs

/-- The decimal text of an integer. -/
def intText (i : Int) : String := String.ofList (intChars i)

/-- The number that `cs` writes, if `cs` is one or more digits and nothing else. -/
def natural? (cs : List Char) : Option Nat :=
  if !cs.isEmpty && cs.all isDigit then some (value cs) else none

theorem digitValue_digitChar : ∀ {n : Nat}, n < 10 → digitValue (digitChar n) = n := by
  decide

theorem isDigit_digitChar : ∀ {n : Nat}, n < 10 → isDigit (digitChar n) = true := by
  decide

theorem value_append_digit (ds : List Char) (c : Char) :
    value (ds ++ [c]) = 10 * value ds + digitValue c := by
  simp [value, List.foldl_append]

/-- Reading the digits of a number gives the number. -/
theorem value_digits (n : Nat) : value (digits n) = n := by
  induction n using Nat.strongRecOn with
  | _ n ih =>
    rw [digits]
    split
    · rename_i h
      simp [value, digitValue_digitChar h]
    · rename_i h
      rw [value_append_digit, ih (n / 10) (by omega), digitValue_digitChar (by omega)]
      omega

theorem digits_ne_nil (n : Nat) : digits n ≠ [] := by
  rw [digits]
  split <;> simp

theorem isDigit_of_mem_digits {n : Nat} {c : Char} (h : c ∈ digits n) : isDigit c = true := by
  induction n using Nat.strongRecOn with
  | _ n ih =>
    rw [digits] at h
    split at h
    · rename_i hn
      rw [List.mem_singleton] at h
      exact h ▸ isDigit_digitChar hn
    · rename_i hn
      rcases List.mem_append.mp h with h | h
      · exact ih (n / 10) (by omega) h
      · rw [List.mem_singleton] at h
        exact h ▸ isDigit_digitChar (by omega)

/-- The digits of a number are read back as that number. -/
theorem natural?_digits (n : Nat) : natural? (digits n) = some n := by
  have hall : (digits n).all isDigit = true := List.all_eq_true.mpr fun _ => isDigit_of_mem_digits
  simp [natural?, hall, value_digits, digits_ne_nil]

end Decimal
end DocumentSql
