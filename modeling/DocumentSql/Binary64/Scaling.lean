/-
# Decimals scaled by powers of ten

A decimal can be made a double in steps, each of which is rounded to nearest:
its significand becomes a double, which is multiplied or divided by a power of
ten. The result may be a neighbour of the double nearest to the decimal, which
`Binary64.ofDecimal` gives. Powers of ten beyond `10^308` are no doubles, so a
division by one of them takes several steps, and a multiplication leads out of
range.

Key definitions: `Magnitude.times`, `Magnitude.dividedBy`, `Magnitude.scaled?`.
-/
import DocumentSql.Binary64.Rounding

namespace DocumentSql
namespace Magnitude

/-- The magnitude nearest to a natural number. -/
def ofNat (n : Nat) : Magnitude := nearest (n * one) 1

/-- The product of two finite magnitudes, rounded to nearest. -/
def times (a b : Magnitude) : Magnitude := nearest (a.units * b.units) one

/-- The quotient of two finite magnitudes, rounded to nearest; the second is not zero. -/
def dividedBy (a b : Magnitude) : Magnitude := nearest (a.units * one) b.units

/-- The exponent of the greatest power of ten that is a double. -/
def greatestTen : Nat := 308

/-- The power `10^n`, rounded to nearest. -/
def tenPower (n : Nat) : Magnitude := ofNat (Decimal.power n)

/-- Divides by the greatest power of ten that is a double, `count` times or until nothing is
left. -/
def overGreatest : Nat → Magnitude → Magnitude
  | 0, m => m
  | count + 1, m =>
    if m = zero then zero else overGreatest count (m.dividedBy (tenPower greatestTen))

/-- Divides by `10^n`, by the greatest power first as long as `n` is above its exponent. -/
def scaleDown (m : Magnitude) (n : Nat) : Magnitude :=
  let count := (n - 1) / greatestTen
  (overGreatest count m).dividedBy (tenPower (n - count * greatestTen))

/-- Multiplies by `10^n`; `none` out of range. -/
def scaleUp? (m : Magnitude) (n : Nat) : Option Magnitude :=
  if m = zero then some zero
  else if greatestTen < n then none
  else
    let product := m.times (tenPower n)
    if product = infinity then none else some product

/-- The decimal `significand * 10^exponent`, scaled step by step; `none` out of range. -/
def scaled? (significand : Nat) (exponent : Int) : Option Magnitude :=
  if exponent < 0 then some ((ofNat significand).scaleDown (-exponent).toNat)
  else (ofNat significand).scaleUp? exponent.toNat

end Magnitude
end DocumentSql
