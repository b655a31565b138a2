/-
# JSON numbers

A number has a minus sign if wanted, whole digits without a zero in front, a
point with digits if wanted, and an exponent if wanted. A whole number that 64
bits hold, with or without a sign, is an integer; the negative zero and all
other numbers are doubles.

The digits of a double are appended to a significand as long as 64 bits hold
it: the whole digits first, of which those left over count as zeros, and then
those behind the point, of which those left over do not count. The significand
is scaled by its power of ten (`Magnitude.scaled?`), so that the double read
need not be the one nearest to the number.

Key definitions: `Json.appendDigits`, `Json.wholeNumber`, `Json.double`,
`Json.number?`.
-/
import DocumentSql.Binary64.Scaling
import DocumentSql.Json.Basic

namespace DocumentSql
namespace Json

/-- Whether digits are a whole number as JSON wants it: at least one, and no zero in front. -/
def isWhole (ds : List Char) : Bool :=
  match ds with
  | [] => false
  | c :: rest => c != '0' || rest.isEmpty

/-- Appends digits to a number as long as 64 bits hold it; the digits left over come second. -/
def appendDigits (n : Nat) : List Char → Nat × List Char
  | [] => (n, [])
  | c :: cs =>
    if 10 * n + Decimal.digitValue c < UInt64.size then
      appendDigits (10 * n + Decimal.digitValue c) cs
    else (n, c :: cs)

/-- The double `±significand * 10^exponent`, which is unreadable out of range. -/
def double (negative : Bool) (significand : Nat) (exponent : Int) : Json :=
  match Magnitude.scaled? significand exponent with
  | some m => .float (.signed negative m)
  | none => .unreadable

/-- Whether `±n` is an integer of 64 bits. The negative zero is none. -/
def isInteger (negative : Bool) (n : Nat) : Bool :=
  if negative then 0 < n && n ≤ Int64.minValue.toInt.natAbs else n < UInt64.size

/-- The number that whole digits alone write. -/
def wholeNumber (negative : Bool) (ds : List Char) : Json :=
  let (n, left) := appendDigits 0 ds
  if left.isEmpty && isInteger negative n then .int (if negative then -(n : Int) else n)
  else double negative n left.length

/-- The number that digits on both sides of a point and an exponent write. -/
def pointNumber (negative : Bool) (whole fraction : List Char) (exponent : Int) : Json :=
  let (n, wholeLeft) := appendDigits 0 whole
  let (n, fractionLeft) := appendDigits n fraction
  double negative n (exponent + wholeLeft.length - (fraction.length - fractionLeft.length : Nat))

/-- The number that characters write, if they keep to the grammar. -/
def number? (cs : List Char) : Option Json :=
  let (negative, rest) := match cs with
    | '-' :: rest => (true, rest)
    | rest => (false, rest)
  let whole := rest.takeWhile Decimal.isDigit
  let rest := rest.dropWhile Decimal.isDigit
  if !isWhole whole then none
  else if rest.isEmpty then some (wholeNumber negative whole)
  else
    let hasPoint := rest.head? == some '.'
    let (fraction, rest) := Binary64.splitFraction rest
    if hasPoint && fraction.isEmpty then none
    else (Binary64.exponent? rest).map (pointNumber negative whole fraction)

end Json
end DocumentSql
