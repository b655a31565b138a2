/-
# Conditions on one row

A predicate compares a column of a row with a value. A null or missing cell
satisfies `!=` only, whatever the value; IN is satisfied by nothing, since
lists are not looked into. The size limit of regular expressions, beyond which
LIKE is false, is left out.

Key definitions: `Predicate`, `Comparison.accepts`, `Predicate.holds`.
-/
import DocumentSql.Like
import DocumentSql.Sql.Query

namespace DocumentSql

namespace Comparison

/-- Whether an outcome of `Scalar.compare?` satisfies the comparison. LIKE and IN do not go by
order. -/
def accepts (comparison : Comparison) (outcome : Option Ordering) : Bool :=
  match comparison with
  | .eq => outcome == some .eq
  | .notEq => outcome != some .eq
  | .greater => outcome == some .gt
  | .less => outcome == some .lt
  | .greaterEq => outcome == some .gt || outcome == some .eq
  | .lessEq => outcome == some .lt || outcome == some .eq
  | .like => false
  | .inList => false

end Comparison

/-- A comparison of the cell at `column` with `value`. -/
structure Predicate where
  column : String
  comparison : Comparison
  value : Scalar
deriving DecidableEq

namespace Predicate

/-- Whether a cell satisfies the predicate. LIKE goes by the texts of both, whatever the size of the
pattern. -/
def holdsFor (p : Predicate) (cell : Scalar) : Bool :=
  match p.comparison with
  | .like => !cell.isNull && Like.matchesExactly p.value.display cell.display
  | c => c.accepts (cell.compare? p.value)

/-- Whether a row satisfies the predicate. -/
def holds (p : Predicate) (row : Row) : Bool := p.holdsFor (row.cell p.column)

end Predicate
end DocumentSql
