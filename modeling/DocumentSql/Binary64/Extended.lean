/-
# Scaling with 64 significant bits

Positive numbers `mantissa * 2^exponent` whose products are rounded to 64
significant binary digits, the even one of two equally near. A power of ten is
multiplied in by hundreds, tens and ones of its exponent, and every product is
rounded, so that a decimal read this way, or the digits of a double found this
way, can be off by one in the last place: `Extended.ofDecimal` and
`Extended.leadingDigits` are not correctly rounded, unlike `Binary64.ofDecimal`
and `shortest`.

Key definitions: `Extended`, `Extended.ofDecimal`, `Extended.toMagnitude`,
`Extended.ofMagnitude`, `Extended.leadingDigits`.
-/
import DocumentSql.Binary64.Shortest

namespace DocumentSql

/-- The number `mantissa * 2^exponent`. -/
structure Extended where
  mantissa : Nat
  exponent : Int
deriving DecidableEq

namespace Extended

/-- The number of significant binary digits. -/
def precision : Nat := 64

/-- The number nearest to `mantissa * 2^exponent` with at most 64 significant digits. -/
def round (mantissa : Nat) (exponent : Int) : Extended :=
  let surplus := Nat.log2 mantissa + 1 - precision
  ⟨roundHalfEven mantissa (1 <<< surplus), exponent + surplus⟩

/-- The rounded product. -/
def mul (x y : Extended) : Extended := round (x.mantissa * y.mantissa) (x.exponent + y.exponent)

/-- The power `10^n`, rounded. -/
def tenPower (n : Nat) : Extended := round (Decimal.power n) 0

/-- The power `10^-n`, rounded; `n` is not zero. -/
def tenthPower (n : Nat) : Extended :=
  let shift := precision + Nat.log2 (Decimal.power n)
  ⟨roundHalfEven (1 <<< shift) (Decimal.power n), -(shift : Int)⟩

/-- Multiplies by the hundredth, the tenth and the first power that `power` gives, in this order,
as often as the digits of `n` say. -/
def scale (power : Nat → Extended) (x : Extended) (n : Nat) : Extended :=
  let x := Nat.repeat (mul · (power 100)) (n / 100) x
  let x := Nat.repeat (mul · (power 10)) (n % 100 / 10) x
  Nat.repeat (mul · (power 1)) (n % 10) x

/-- Significands below this bound are multiplied by ten without loss. -/
def wideningBound : Nat := (UInt64.size - 1 - 0x7FF) / 10

/-- Moves tens from the exponent `e` of `significand * 10^e` into the significand as long as it is
below the bound; the exponent that is left comes second. -/
def widen (significand : Nat) : Nat → Nat × Nat
  | 0 => (significand, 0)
  | e + 1 => if significand < wideningBound then widen (significand * 10) e else (significand, e + 1)

/-- The number that a decimal is read as. -/
def ofDecimal (d : ScaledDecimal) : Extended :=
  if 0 ≤ d.exponent then
    let (significand, e) := widen d.significand d.exponent.toNat
    scale tenPower ⟨significand, 0⟩ e
  else scale tenthPower ⟨d.significand, 0⟩ (-d.exponent).toNat

/-- The magnitude of a double nearest to the number. -/
def toMagnitude (x : Extended) : Magnitude :=
  .nearest (x.mantissa <<< (x.exponent + 1074).toNat) (1 <<< (-x.exponent - 1074).toNat)

/-- The number that a finite magnitude is. -/
def ofMagnitude (m : Magnitude) : Extended := ⟨m.units, -1074⟩

/-- Strictly below, as numbers. -/
def below (x y : Extended) : Bool :=
  x.mantissa <<< (x.exponent - y.exponent).toNat < y.mantissa <<< (y.exponent - x.exponent).toNat

/-- The whole part. -/
def floor (x : Extended) : Nat :=
  (x.mantissa <<< x.exponent.toNat) >>> (-x.exponent).toNat

/-- Multiplies by `factor` as long as `again` holds, at most `limit` times; the number of times
comes first. -/
def scaleWhile (again : Extended → Bool) (factor : Extended) : Nat → Extended → Nat × Extended
  | 0, x => (0, x)
  | limit + 1, x =>
    if again x then
      let (n, y) := scaleWhile again factor limit (x.mul factor)
      (n + 1, y)
    else (0, x)

/-- The least power of ten above all the whole numbers that `leadingDigits` looks at, by its
exponent. -/
def digitCeiling : Nat := 19

/-- The least of the whole numbers that `leadingDigits` looks at, as the exponent of a power of
ten. -/
def digitFloor : Nat := 17

/-- A whole number of 18 or 19 digits with which the digits of a number that is not zero begin, and
the exponent of ten that belongs to it. -/
def leadingDigits (x : Extended) : ScaledDecimal :=
  if x.below (tenPower digitCeiling) then
    let (a, x) := scaleWhile (·.below (tenthPower 97)) (tenPower 100) 12 x
    let (b, x) := scaleWhile (·.below (tenPower 7)) (tenPower 10) 12 x
    let (c, x) := scaleWhile (·.below (tenPower digitFloor)) (tenPower 1) 12 x
    ⟨x.floor, -(100 * a + 10 * b + c : Int)⟩
  else
    let (a, x) := scaleWhile (!·.below (tenPower 119)) (tenthPower 100) 12 x
    let (b, x) := scaleWhile (!·.below (tenPower 29)) (tenthPower 10) 12 x
    let (c, x) := scaleWhile (!·.below (tenPower digitCeiling)) (tenthPower 1) 12 x
    ⟨x.floor, 100 * a + 10 * b + c⟩

end Extended
end DocumentSql
