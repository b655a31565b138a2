/-
# Column references

A column is written bare, as `name`, or behind a table or an alias, as
`users.name`. A row of the first table of a query has bare keys; each join adds
keys of the form `table.column`. So the same column may be found under several
keys, and a `Scope` knows in which order to try them.

`lookup?` serves the select list. `lookupLenient?` serves grouping and
aggregates; it also takes the first key that ends in the bare name.

Key definitions: `Column.split`, `Column.bareName`, `Scope`, `Scope.lookup?`,
`Scope.lookupLenient?`.
-/
import DocumentSql.Scalar

namespace DocumentSql

namespace Column

/-- The characters before and behind the first dot. -/
def splitDot : List Char → Option (List Char × List Char)
  | [] => none
  | c :: cs =>
    if c = '.' then some ([], cs)
    else (splitDot cs).map fun (before, behind) => (c :: before, behind)

/-- The table part and the column part of a reference. There is a table part only if the first dot
has something on both sides. -/
def split (column : String) : Option String × String :=
  match splitDot column.toList with
  | some (before, behind) =>
    if before.isEmpty || behind.isEmpty then (none, column)
    else (some (String.ofList before), String.ofList behind)
  | none => (none, column)

/-- The characters behind the last dot. -/
def afterLastDot (cs : List Char) : List Char := (cs.reverse.takeWhile (· != '.')).reverse

/-- The part of a reference behind its last dot. -/
def bareName (column : String) : String := String.ofList (afterLastDot column.toList)

/-- The key under which a join puts a column of a table. -/
def qualified (table column : String) : String := table ++ "." ++ column

/-- Whether a key ends in a dot and the given name. -/
def endsIn (key name : String) : Bool := ('.' :: name.toList).isSuffixOf key.toList

end Column

/-- The tables of a query, the first one of FROM in front, and its aliases. -/
structure Scope where
  tables : List String
  aliases : OrderedMap String String

namespace Scope

/-- The table whose columns have bare keys. -/
def base (s : Scope) : String := s.tables.head?.getD ""

/-- The table that an alias stands for; any other name stands for itself. -/
def tableOf (s : Scope) (name : String) : String := (s.aliases.get? name).getD name

/-- The cell that a reference names in a row: at the reference itself; else, with a table part, at
the table's own key or, for the base table, at the bare key; else, without one, at the key of the
first joined table that has it. -/
def lookup? (s : Scope) (row : Row) (column : String) : Option Scalar :=
  match row.get? column with
  | some v => some v
  | none =>
    match Column.split column with
    | (some name, bare) =>
      match row.get? (Column.qualified (s.tableOf name) bare) with
      | some v => some v
      | none => if s.tableOf name = s.base then row.get? bare else none
    | (none, bare) => s.tables.tail.findSome? fun t => row.get? (Column.qualified t bare)

/-- The cell at a reference with a table part: at the table's own key or, for the base table, at
the bare key. -/
def qualifiedCell? (s : Scope) (row : Row) (column : String) : Option Scalar :=
  match Column.split column with
  | (some name, _) =>
    match row.get? (Column.qualified (s.tableOf name) (Column.bareName column)) with
    | some v => some v
    | none => if s.tableOf name = s.base then row.get? (Column.bareName column) else none
  | (none, _) => none

/-- The first cell whose key ends in a dot and the given name, or else the one at that name. -/
def suffixCell? (row : Row) (bare : String) : Option Scalar :=
  match row.entries.find? fun e => Column.endsIn e.1 bare with
  | some e => some e.2
  | none => row.get? bare

/-- The cell that a reference names in a row, by any of its keys: the reference itself, the key of
its table, a key that ends in the bare name, the bare name. -/
def lookupLenient? (s : Scope) (row : Row) (column : String) : Option Scalar :=
  match row.get? column with
  | some v => some v
  | none =>
    match s.qualifiedCell? row column with
    | some v => some v
    | none => suffixCell? row (Column.bareName column)

end Scope
end DocumentSql
