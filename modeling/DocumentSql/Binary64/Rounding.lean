/-
# Rounding to the nearest double

`Magnitude.nearest num den` is the magnitude nearest to `num / den` units of
`2^-1074`; of two equally near ones it is the one with the even code, and what
lies half a step or more above the largest finite magnitude is infinity.
Whole numbers, decimals, sums and means of doubles are rounded by it.

Key definitions: `roundHalfEven`, `Magnitude.nearest`, `Binary64.ofInt`,
`Binary64.ofDecimal`, `Binary64.add`, `Binary64.divNat`.
-/
import DocumentSql.Binary64.Basic
import DocumentSql.Decimal.Digits

namespace DocumentSql

/-- The whole number nearest to `num / den`, the even one of two equally near. -/
def roundHalfEven (num den : Nat) : Nat :=
  if 2 * (num % den) < den then num / den
  else if 2 * (num % den) = den then num / den + num / den % 2
  else num / den + 1

namespace Magnitude

/-- The number of doublings of the smallest step at the quotient `num / den`: none below `2^53`
units, and above so many that the quotient has 53 binary digits in that step. -/
def stepExponent (num den : Nat) : Nat :=
  if num / den < 1 <<< 53 then 0 else Nat.log2 (num / den) - 52

/-- The code, if codes had no upper bound, of the magnitude nearest to `num / den` units. A
rounding up to the next power of two carries into the exponent field by itself. -/
def nearestCode (num den : Nat) : Nat :=
  (stepExponent num den <<< 52) + roundHalfEven num (den <<< stepExponent num den)

/-- The magnitude nearest to `num / den` units of `2^-1074`. -/
def nearest (num den : Nat) : Magnitude :=
  if h : nearestCode num den < (1 <<< 63) - (1 <<< 52) + 1 then ⟨nearestCode num den, h⟩ else infinity

/-- The number of units in 1. -/
def one : Nat := 1 <<< 1074

end Magnitude

namespace Binary64

/-- The double nearest to an integer. -/
def ofInt (i : Int) : Binary64 :=
  .signed (i < 0) (.nearest (i.natAbs * Magnitude.one) 1)

/-- How many decimal digits a number has. -/
def digitCount (n : Nat) : Nat :=
  if n < 10 then 1 else digitCount (n / 10) + 1

/-- The double nearest to `±significand * 10^exponent`. A decimal far outside the range of the
finite doubles is infinity or zero at once, whatever the size of its exponent. -/
def ofDecimal (negative : Bool) (significand : Nat) (exponent : Int) : Binary64 :=
  if significand = 0 then .signed negative .zero
  else if 400 < exponent + digitCount significand then .signed negative .infinity
  else if exponent + digitCount significand < -400 then .signed negative .zero
  else .signed negative
    (.nearest (significand * Decimal.power exponent.toNat * Magnitude.one)
      (Decimal.power (-exponent).toNat))

/-- A finite number as a signed count of units. -/
def signedUnits (negative : Bool) (m : Magnitude) : Int :=
  if negative then -(m.units : Int) else m.units

/-- The sum, rounded to nearest. Opposite infinities have no sum, and a sum of zero is positive
unless both numbers are negative. -/
def add : Binary64 → Binary64 → Binary64
  | .signed s a, .signed t b =>
    if a = .infinity then (if b = .infinity ∧ s ≠ t then .nan else .signed s a)
    else if b = .infinity then .signed t b
    else
      let sum := signedUnits s a + signedUnits t b
      if sum = 0 then .signed (s && t) .zero
      else .signed (sum < 0) (.nearest sum.natAbs 1)
  | _, _ => .nan

/-- The quotient by a positive whole number, rounded to nearest. -/
def divNat (x : Binary64) (n : Nat) : Binary64 :=
  match x with
  | .nan => .nan
  | .signed s m => if m = .infinity then x else .signed s (.nearest m.units n)

end Binary64
end DocumentSql
