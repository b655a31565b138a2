/-
# Conditions on stored rows

A predicate on a stored row is a condition that no row has a say in, or a
comparison with the cell at the end of a path. Conditions are looked at in
order, and the first that does not hold or cannot be judged decides; if one of
them holds for no row, no row is looked at. A list of conditions is refused if
it is nested too deeply when the conditions are joined one after another, and a
pattern if it has too many bytes.

Key definitions: `Predicate.constant?`, `Predicate.judge`, `Predicate.judgeAll`,
`Predicate.depthOf`, `Predicate.select`.
-/
import DocumentSql.Store.CellPath
import DocumentSql.Store.Collation
import DocumentSql.Store.StoredRow

namespace DocumentSql
namespace Predicate

/-- The outcome of a predicate that no row has a say in: with a null value, every cell satisfies
`!=` and none anything else, and none is looked for in a list. -/
def constant? (p : Predicate) : Option Bool :=
  if p.value.isNull then some (p.comparison == .notEq)
  else if p.comparison == .inList then some false
  else none

/-- The greatest number of bytes of a pattern. -/
def patternLimit : Nat := 50000

/-- Whether the value of a predicate is a pattern with too many bytes. -/
def isOverlong (p : Predicate) : Bool :=
  p.comparison == .like && patternLimit < (Stored.ofScalar p.value).display.utf8ByteSize

/-- Whether a row satisfies a predicate. -/
def judge (p : Predicate) (row : Row) : Except StoreError Bool :=
  match p.constant?, CellPath.ofColumn? p.column with
  | some b, _ => .ok b
  | none, none => .error .columnUnreadable
  | none, some path =>
    match path.lookup row with
    | .error e => .error e
    | .ok cell =>
      if p.isOverlong then .error .conditionTooLong
      else .ok (p.comparison.holdsBetween (.ofCell cell) (.ofScalar p.value))

/-- Whether a row satisfies all the predicates. -/
def judgeAll : List Predicate → Row → Except StoreError Bool
  | [], _ => .ok true
  | p :: rest, row =>
    match p.judge row with
    | .ok true => judgeAll rest row
    | other => other

/-- The greatest depth of joined conditions. -/
def depthLimit : Nat := 1000

/-- The depth of a predicate on its own. A condition with `!=` asks for a missing cell too. -/
def depth (p : Predicate) : Nat :=
  if p.constant?.isSome then 2 else if p.comparison == .notEq then 4 else 3

/-- The depth of the predicates, joined one after another to the condition on the table. -/
def depthOf (ps : List Predicate) : Nat := ps.foldl (fun d p => max d p.depth + 1) 2

/-- The first `limit` rows that satisfy all the predicates. -/
def firstOf (ps : List Predicate) : Nat → List StoredRow → Except StoreError (List StoredRow)
  | 0, _ => .ok []
  | _ + 1, [] => .ok []
  | limit + 1, r :: rest =>
    match judgeAll ps r.row with
    | .error e => .error e
    | .ok true => (firstOf ps limit rest).map (r :: ·)
    | .ok false => firstOf ps (limit + 1) rest

/-- The first `limit` rows that satisfy all the predicates, if the predicates can be asked for. -/
def select (ps : List Predicate) (limit : Nat) (rows : List StoredRow) :
    Except StoreError (List StoredRow) :=
  if depthLimit < depthOf ps then .error .conditionTooLong
  else if ps.any fun p => p.constant? == some false then .ok []
  else firstOf ps limit rows

end Predicate
end DocumentSql
