/-
# Cell values

Documents have no column types, so each cell of a row is a `Scalar`: null, a
truth value, a 64-bit integer, a double or a text. Two scalars are compared as
numbers when both have a numeric reading, as texts otherwise; integers are
rounded to doubles first. Null compares with nothing and equals nothing.

Key definitions: `Scalar.display`, `Scalar.number?`, `Scalar.compare?`,
`Scalar.looselyEquals`.
-/
import DocumentSql.Binary64.Text
import DocumentSql.OrderedMap
import DocumentSql.Text.Blank

namespace DocumentSql

/-- The value of a cell. -/
inductive Scalar where
  | null
  | bool (b : Bool)
  | int (i : Int64)
  | float (x : Binary64)
  | text (s : String)
deriving DecidableEq

namespace Scalar

instance : Inhabited Scalar := ⟨.null⟩

/-- The 64-bit integer that equals `i`, if there is one. -/
def int64? (i : Int) : Option Int64 :=
  if Int64.minValue.toInt ≤ i ∧ i ≤ Int64.maxValue.toInt then some (Int64.ofInt i) else none

/-- The value for a whole number: an integer if 64 bits hold it, or else the nearest double. -/
def ofWhole (i : Int) : Scalar :=
  match int64? i with
  | some n => .int n
  | none => .float (Binary64.ofInt i)

/-- The text shown for a value. -/
def display : Scalar → String
  | .null => "NULL"
  | .bool b => if b then "true" else "false"
  | .int i => Decimal.intText i.toInt
  | .float x => x.plainText
  | .text s => s

/-- The text that stands for a value in a group's key; null has none. -/
def keyFragment : Scalar → String
  | .null => ""
  | v => v.display

/-- Whether the value is null. -/
def isNull : Scalar → Bool
  | .null => true
  | _ => false

/-- Whether the value is null or the empty text, which `COUNT` of a column leaves out. -/
def isBlank : Scalar → Bool
  | .null => true
  | .text s => s.isEmpty
  | _ => false

/-- The numeric reading of a value: integers and doubles have one, and texts that write a number
between blanks; truth values have none, and neither has what is not a number. -/
def number? : Scalar → Option Binary64
  | .int i => some (.ofInt i.toInt)
  | .float x => if x.isNaN then none else some x
  | .text s => (Binary64.ofText? (Text.trimChars s.toList)).filter (!·.isNaN)
  | _ => none

/-- The equality that joins use: an integer equals the double that it rounds to, other values only
values of their own kind, and null equals nothing. -/
def looselyEquals : Scalar → Scalar → Bool
  | .bool a, .bool b => a == b
  | .int a, .int b => a == b
  | .int a, .float b => (Binary64.ofInt a.toInt).equals b
  | .float a, .int b => (Binary64.ofInt b.toInt).equals a
  | .float a, .float b => a.equals b
  | .text a, .text b => a == b
  | _, _ => false

/-- The order of two texts by their code points. -/
def compareText (a b : String) : Ordering :=
  if a < b then .lt else if a = b then .eq else .gt

/-- The order of the values as numbers, if both have a numeric reading, or else as shown. -/
def compareMixed (a b : Scalar) : Option Ordering :=
  match a.number?, b.number? with
  | some x, some y => x.compare? y
  | _, _ => some (compareText a.display b.display)

/-- The order that conditions use. There is none with null. Texts compare as texts and truth
values as truth values, with `false` below `true`. -/
def compare? : Scalar → Scalar → Option Ordering
  | .null, _ => none
  | _, .null => none
  | .text a, .text b => some (compareText a b)
  | .bool a, .bool b => some (compare a b)
  | a, b => compareMixed a b

end Scalar

/-- A row: the names of its columns with their values, in order. -/
abbrev Row := OrderedMap String Scalar

namespace Row

/-- The cell at `column`, null if the row has none. -/
def cell (row : Row) (column : String) : Scalar := (row.get? column).getD .null

end Row

/-- A stored row with the identifier that its store gave it. -/
structure Document where
  id : String
  data : Row
deriving DecidableEq

end DocumentSql
