/-
# The fewest digits that identify a double

The decimals that round to a finite magnitude other than zero are those
between the midpoints to its two neighbours, ends included exactly when its
code is even (`Magnitude.identifies`). `shortest` gives one of them with the
fewest digits, and of those one nearest to the magnitude. It looks at the grids
of 1, 2, … 17 digits in turn: if any point of a grid lies in the interval, so
does one of the two points beside the magnitude.

Key definitions: `Magnitude.identifies`, `shortest`.
-/
import DocumentSql.Binary64.Rounding

namespace DocumentSql

/-- The number `significand * 10^exponent`. -/
structure ScaledDecimal where
  significand : Nat
  exponent : Int
deriving DecidableEq

/-- Which of two decimals is taken when both are equally near. -/
inductive Tie where
  | toEven
  | up

namespace Magnitude

/-- Units of `2^-1074` in one step of the grid `10^exponent`, with the count of a magnitude's own
units multiplied by `gridScale` so that both are whole. -/
def gridStep (exponent : Int) : Nat := Decimal.power exponent.toNat * one

/-- See `gridStep`. -/
def gridScale (exponent : Int) : Nat := Decimal.power (-exponent).toNat

/-- Whether `significand * 10^exponent` rounds to the magnitude with code `code`. -/
def identifies (code : Nat) (significand : Nat) (exponent : Int) : Bool :=
  let twice := 2 * significand * gridStep exponent
  let low := (unitsOfCode (code - 1) + unitsOfCode code) * gridScale exponent
  let high := (unitsOfCode code + unitsOfCode (code + 1)) * gridScale exponent
  if code % 2 = 0 then low ≤ twice && twice ≤ high else low < twice && twice < high

/-- The least `k` for which the magnitude of `units` units, which is not zero, is below `10^k`. -/
def decimalScale (units : Nat) : Int :=
  if one ≤ units then Binary64.digitCount (units / one)
  else 1 - (Binary64.digitCount ((one - 1) / units) : Int)

/-- The point of the grid `10^exponent` nearest to the magnitude among the two beside it that
identify the magnitude, if one does. -/
def onGrid? (tie : Tie) (code : Nat) (exponent : Int) : Option ScaledDecimal :=
  let scaled := unitsOfCode code * gridScale exponent
  let below := scaled / gridStep exponent
  let remainder := scaled % gridStep exponent
  let nearer :=
    match compare (2 * remainder) (gridStep exponent), tie with
    | .lt, _ => below
    | .gt, _ => below + 1
    | .eq, .up => below + 1
    | .eq, .toEven => below + below % 2
  match identifies code below exponent, identifies code (below + 1) exponent with
  | true, true => some ⟨nearer, exponent⟩
  | true, false => some ⟨below, exponent⟩
  | false, true => some ⟨below + 1, exponent⟩
  | false, false => none

/-- The first hit on the grids of `count` digits and more, up to 17. -/
def searchGrids (tie : Tie) (code : Nat) (scale : Int) (count : Nat) : Option ScaledDecimal :=
  if count ≤ 17 then (onGrid? tie code (scale - count)).or (searchGrids tie code scale (count + 1))
  else none
termination_by 18 - count

end Magnitude

namespace ScaledDecimal

/-- Moves trailing zeros of the significand into the exponent, at most `limit` of them. -/
def stripZeros : Nat → ScaledDecimal → ScaledDecimal
  | 0, d => d
  | limit + 1, d =>
    if d.significand % 10 = 0 then stripZeros limit ⟨d.significand / 10, d.exponent + 1⟩ else d

end ScaledDecimal

/-- The shortest decimal that identifies a finite magnitude other than zero. Seventeen digits
suffice for every double; the exact value stands in for a search without a hit. -/
def shortest (tie : Tie) (m : Magnitude) : ScaledDecimal :=
  ((Magnitude.searchGrids tie m.val (Magnitude.decimalScale m.units) 1).getD
    ⟨m.units * Nat.pow 5 1074, -1074⟩).stripZeros 20

end DocumentSql
