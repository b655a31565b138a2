/-
# Values without types

The comparisons of a database that gives its values no types. A value is a
number, a text or nothing: truth values count as 1 and 0. Any number is below
any text; integers and doubles compare by their exact values, texts by their
code points; a comparison with nothing has no outcome. A double in a cell is
what its JSON text is read as, which may be its neighbour. LIKE looks at the
texts of both sides up to a null character, in which a double has fifteen
significant digits and a point, and leaves the case of ASCII letters aside.

Key definitions: `Stored`, `Stored.ofScalar`, `Stored.ofCell`,
`Stored.compare?`, `Stored.display`, `Comparison.holdsBetween`.
-/
import DocumentSql.Binary64.Extended
import DocumentSql.Predicate

namespace DocumentSql

/-- A value as the database sees it. -/
inductive Stored where
  | nothing
  | int (i : Int)
  | real (x : Binary64)
  | text (s : String)
deriving DecidableEq

namespace Stored

/-- The value of a scalar. What is not a number is nothing. -/
def ofScalar : Scalar → Stored
  | .null => .nothing
  | .bool b => .int (if b then 1 else 0)
  | .int i => .int i.toInt
  | .float x => if x.isNaN then .nothing else .real x
  | .text s => .text s

/-- The double that the shortest text of a finite magnitude is read as. -/
def reread (negative : Bool) (m : Magnitude) : Binary64 :=
  .signed negative
    (if m = .zero then .zero else (Extended.ofDecimal (shortest .toEven m)).toMagnitude)

/-- The value of a cell, which is read from its JSON text. -/
def ofCell : Scalar → Stored
  | .float (.signed s m) => if m = .infinity then .nothing else .real (reread s m)
  | v => ofScalar v

/-- The exact order of an integer and a double. -/
def compareExact (i : Int) : Binary64 → Option Ordering
  | .nan => none
  | .signed s m =>
    if m = .infinity then some (if s then .gt else .lt)
    else some (compare (i * Magnitude.one) (Binary64.signedUnits s m))

/-- The order of two values. -/
def compare? : Stored → Stored → Option Ordering
  | .int a, .int b => some (compare a b)
  | .int a, .real y => compareExact a y
  | .real x, .int b => (compareExact b x).map Ordering.swap
  | .real x, .real y => x.compare? y
  | .text a, .text b => some (Scalar.compareText a b)
  | .int _, .text _ => some .lt
  | .real _, .text _ => some .lt
  | .text _, .int _ => some .gt
  | .text _, .real _ => some .gt
  | _, _ => none

/-- How many significant digits the text of a double has. -/
def significantDigits : Nat := 15

/-- The fifteen significant digits shown for a finite magnitude that is not zero: its leading
digits, half way rounded away from zero. -/
def fifteenDigits (m : Magnitude) : ScaledDecimal :=
  let d := (Extended.ofMagnitude m).leadingDigits
  let surplus := Binary64.digitCount d.significand - significantDigits
  let step := Decimal.power surplus
  (⟨(2 * d.significand + step) / (2 * step), d.exponent + surplus⟩ : ScaledDecimal).stripZeros 16

/-- The exponent of ten of a number with at least two digits. -/
def exponentChars (e : Int) : List Char :=
  (if e < 0 then '-' else '+') :: (if e.natAbs < 10 then ['0'] else []) ++ Decimal.digits e.natAbs

/-- The text of a decimal that is not zero. -/
def finiteChars (d : ScaledDecimal) : List Char :=
  let e := Binary64.leadingExponent d
  let ds := Decimal.digits d.significand
  if -4 ≤ e && e < significantDigits then Binary64.positional d ['.', '0']
  else
    ds.take 1 ++ '.' :: (if ds.length ≤ 1 then ['0'] else ds.drop 1) ++ 'e' :: exponentChars e

/-- The text of a double: with a point and a digit on both sides of it, and with an exponent below
`10^-4` and from `10^15` on. Zero is written without its sign. -/
def realChars : Binary64 → List Char
  | .nan => []
  | .signed s m =>
    if m = .zero then ['0', '.', '0']
    else
      Binary64.signChars s ++
        if m = .infinity then ['I', 'n', 'f']
        else finiteChars (fifteenDigits m)

/-- The text of a value that is not nothing. -/
def display : Stored → String
  | .nothing => ""
  | .int i => Decimal.intText i
  | .real x => String.ofList (realChars x)
  | .text s => s

/-- The character that LIKE takes a character for: the last two of the first plane count as the
replacement character. -/
def likeChar (c : Char) : Char :=
  if c.toNat = 0xFFFE || c.toNat = 0xFFFF then Char.ofNat 0xFFFD else c

/-- The text that LIKE looks at: a null character ends it. -/
def likeText (v : Stored) : String :=
  String.ofList ((v.display.toList.takeWhile (· != '\x00')).map likeChar)

end Stored

/-- Whether a comparison of a cell with a value, which is not null, holds. -/
def Comparison.holdsBetween (comparison : Comparison) (cell value : Stored) : Bool :=
  match comparison with
  | .inList => false
  | .notEq =>
    cell == .nothing ||
      match cell.compare? value with
      | some o => o != .eq
      | none => false
  | .like =>
    cell != .nothing && value != .nothing && Like.matchesAnyCase value.likeText cell.likeText
  | c => c.accepts (cell.compare? value)

end DocumentSql
