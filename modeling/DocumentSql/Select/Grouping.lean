/-
# Groups and aggregates

Without GROUP BY all rows are one group. With it, rows belong together when the
texts of their group columns, joined by `|`, agree; groups come in the order in
which their first rows come. A group's row shows each group column, under its
bare name and as written, and then the aggregates.

SUM is an integer as long as every number in it is one and the total so far
fits 64 bits; once it is not, it stays a double. MIN and MAX choose by numeric
value, and give an integer only if all numbers are integers.

Key definitions: `Aggregate.value`, `groupRows`, `aggregateRows`.
-/
import DocumentSql.Select.Scope
import DocumentSql.Sql.Query

namespace DocumentSql

namespace Aggregate

/-- The sum of two integers, if 64 bits hold it. -/
def addExact (a b : Int64) : Option Int64 := Scalar.int64? (a.toInt + b.toInt)

/-- A running total as a double, and as an integer while it is one. -/
structure Total where
  rounded : Binary64
  exact : Option Int64

namespace Total

/-- The total of nothing. -/
def zero : Total := ⟨.zero, some 0⟩

/-- The total with one more value; a value without a numeric reading adds nothing. -/
def add (t : Total) (v : Scalar) : Total :=
  match v.number? with
  | none => t
  | some x =>
    ⟨t.rounded.add x,
      match t.exact, v with
      | some sum, .int i => addExact sum i
      | _, _ => none⟩

/-- The value of SUM. -/
def toScalar (t : Total) : Scalar :=
  match t.exact with
  | some i => .int i
  | none => .float t.rounded

end Total

/-- The sum of the values. -/
def sumOf (vs : List Scalar) : Scalar := (vs.foldl Total.add .zero).toScalar

/-- The mean of the values with a numeric reading, zero if there are none. -/
def meanOf (vs : List Scalar) : Scalar :=
  let numbers := vs.filterMap Scalar.number?
  if numbers.isEmpty then .float .zero
  else .float ((numbers.foldl Binary64.add (.signed true .zero)).divNat numbers.length)

/-- The best value so far with its numeric reading, and whether all numbers so far are integers. -/
structure Extreme where
  best : Option (Binary64 × Scalar)
  allInt : Bool

namespace Extreme

/-- Whether a value is an integer. -/
def isInt : Scalar → Bool
  | .int _ => true
  | _ => false

/-- Goes on with one more value, which is taken if it is strictly better. -/
def add (better : Binary64 → Binary64 → Bool) (e : Extreme) (v : Scalar) : Extreme :=
  match v.number? with
  | none => e
  | some x =>
    ⟨match e.best with
      | none => some (x, v)
      | some (y, w) => if better x y then some (x, v) else some (y, w),
      e.allInt && isInt v⟩

/-- The value of MIN or MAX: null if no value has a numeric reading. -/
def toScalar (e : Extreme) : Scalar :=
  match e.best with
  | none => .null
  | some (x, v) => if e.allInt && isInt v then v else .float x

end Extreme

/-- The best of the values by their numeric readings. -/
def extremeOf (better : Binary64 → Binary64 → Bool) (vs : List Scalar) : Scalar :=
  (vs.foldl (Extreme.add better) ⟨none, true⟩).toScalar

/-- The value for a group that has rows, from the cells of its column. -/
def ofCells (function : AggregateFunction) (vs : List Scalar) : Scalar :=
  match function with
  | .count => .int (Int64.ofNat (vs.countP (!·.isBlank)))
  | .sum => sumOf vs
  | .avg => meanOf vs
  | .min => extremeOf Binary64.below vs
  | .max => extremeOf Binary64.above vs

/-- The value for a group without rows. -/
def ofNothing : AggregateFunction → Scalar
  | .count => .int 0
  | .avg => .float .zero
  | _ => .null

/-- The value for a group. -/
def value (a : Aggregate) (scope : Scope) (rows : List Row) : Scalar :=
  if rows.isEmpty then ofNothing a.function
  else if a.countsRows then .int (Int64.ofNat rows.length)
  else ofCells a.function (rows.map fun row => (scope.lookupLenient? row a.column).getD .null)

end Aggregate

/-- The aggregates of one group, as a row. -/
def aggregateGroup (scope : Scope) (aggregates : List Aggregate) (rows : List Row) : Row :=
  OrderedMap.ofList (aggregates.map fun a => (a.outputName, a.value scope rows))

/-- The text that rows of one group share. -/
def groupKey (scope : Scope) (groupBy : List String) (row : Row) : String :=
  "|".intercalate <| groupBy.map fun column =>
    match scope.lookupLenient? row column with
    | some v => v.keyFragment
    | none => ""

/-- The rows by their group, groups and rows in the order of the input. -/
def groupRows (key : Row → String) (rows : List Row) : OrderedMap String (List Row) :=
  rows.foldl (fun groups row => groups.insert (key row) ((groups.get? (key row)).getD [] ++ [row]))
    .empty

/-- The group columns of a group, as the first of its rows shows them. -/
def groupColumns (scope : Scope) (groupBy : List String) (rows : List Row) : Row :=
  OrderedMap.ofList <| groupBy.flatMap fun column =>
    let v := (rows.head?.bind (scope.lookupLenient? · column)).getD .null
    [(Column.bareName column, v), (column, v)]

/-- The row of a group. -/
def groupRow (scope : Scope) (aggregates : List Aggregate) (groupBy : List String)
    (rows : List Row) : Row :=
  (groupColumns scope groupBy rows).insertAll (aggregateGroup scope aggregates rows).entries

/-- One row for each group. No rows at all are still one group if there are aggregates. -/
def aggregateRows (scope : Scope) (aggregates : List Aggregate) (groupBy : List String)
    (rows : List Row) : List Row :=
  if groupBy.isEmpty || (rows.isEmpty && !aggregates.isEmpty) then
    [aggregateGroup scope aggregates rows]
  else (groupRows (groupKey scope groupBy) rows).values.map (groupRow scope aggregates groupBy)

end DocumentSql
