/-
# Doubles as text

A double is written with the fewest digits that identify it, in one of two
layouts. `plainText` never uses an exponent and shows whole numbers without a
point. `jsonChars` always shows a point or an exponent, and uses an exponent
below `10^-5` and from `10^16` on.

`ofText?` reads a sign, digits with an optional point, and an optional
exponent, or one of the words `inf`, `infinity` and `nan` in any case.

Key definitions: `Binary64.plainText`, `Binary64.jsonChars`, `Binary64.ofText?`.
-/
import DocumentSql.Binary64.Shortest
import DocumentSql.Decimal.Digits
import DocumentSql.Text.Case

namespace DocumentSql
namespace Binary64

/-- The digits with a decimal point, of which `exponent` says where it stands; a whole number is
written without a point and followed by `wholeEnd`. -/
def positional (d : ScaledDecimal) (wholeEnd : List Char) : List Char :=
  let ds := Decimal.digits d.significand
  let fraction := (-d.exponent).toNat
  if 0 ≤ d.exponent then ds ++ List.replicate d.exponent.toNat '0' ++ wholeEnd
  else if fraction < ds.length then
    ds.take (ds.length - fraction) ++ '.' :: ds.drop (ds.length - fraction)
  else '0' :: '.' :: List.replicate (fraction - ds.length) '0' ++ ds

/-- The exponent of the first digit. -/
def leadingExponent (d : ScaledDecimal) : Int :=
  d.exponent + (Decimal.digits d.significand).length - 1

/-- One digit, the others behind a point, and the exponent with its sign. -/
def scientific (d : ScaledDecimal) : List Char :=
  let e := leadingExponent d
  let tail := (Decimal.digits d.significand).drop 1
  (Decimal.digits d.significand).take 1 ++ (if tail.isEmpty then [] else '.' :: tail) ++
    'e' :: (if e < 0 then '-' else '+') :: Decimal.digits e.natAbs

/-- The minus sign of a negative number. -/
def signChars (negative : Bool) : List Char := if negative then ['-'] else []

/-- The text of a double in results: no exponent, and of two equally near shortest decimals the
larger. -/
def plainText : Binary64 → String
  | .nan => "NaN"
  | .signed s m =>
    String.ofList <| signChars s ++
      if m = .infinity then ['i', 'n', 'f']
      else if m = .zero then ['0']
      else positional (shortest .up m) []

/-- The characters of a double in JSON, which has no way to write infinities and what is not a
number: they become `null`. Of two equally near shortest decimals the even one is written. -/
def jsonChars : Binary64 → List Char
  | .nan => ['n', 'u', 'l', 'l']
  | .signed s m =>
    if m = .infinity then ['n', 'u', 'l', 'l']
    else signChars s ++
      if m = .zero then ['0', '.', '0']
      else
        let d := shortest .toEven m
        if -5 ≤ leadingExponent d && leadingExponent d < 16 then positional d ['.', '0']
        else scientific d

/-- An optional sign and the characters behind it. -/
def splitSign : List Char → Bool × List Char
  | '-' :: cs => (true, cs)
  | '+' :: cs => (false, cs)
  | cs => (false, cs)

/-- The exponent behind a number: nothing, or `e`, a sign if wanted, and one or more digits. -/
def exponent? : List Char → Option Int
  | [] => some 0
  | c :: cs =>
    if c = 'e' || c = 'E' then
      let (negative, ds) := splitSign cs
      (Decimal.natural? ds).map fun n => if negative then -(n : Int) else n
    else none

/-- The digits behind the point, if there is a point, and what follows them. -/
def splitFraction : List Char → List Char × List Char
  | '.' :: cs => (cs.takeWhile Decimal.isDigit, cs.dropWhile Decimal.isDigit)
  | cs => ([], cs)

/-- The number that unsigned characters write. -/
def unsigned? (negative : Bool) (cs : List Char) : Option Binary64 :=
  let word := Text.lower (String.ofList cs)
  if word = "inf" || word = "infinity" then some (.signed negative .infinity)
  else if word = "nan" then some .nan
  else
    let whole := cs.takeWhile Decimal.isDigit
    let (fraction, rest) := splitFraction (cs.dropWhile Decimal.isDigit)
    if whole.isEmpty && fraction.isEmpty then none
    else (exponent? rest).map fun e =>
      ofDecimal negative (Decimal.value (whole ++ fraction)) (e - fraction.length)

/-- The double that a text writes, rounded to nearest. -/
def ofText? (cs : List Char) : Option Binary64 :=
  let (negative, rest) := splitSign cs
  unsigned? negative rest

end Binary64
end DocumentSql
