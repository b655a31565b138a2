/-
# Keywords and operators

The closed sets of words that a statement is built from, each with its reading
from a word in any case and its written form in capitals.

Key definitions: `StatementKind`, `JoinKind`, `AggregateFunction`,
`Comparison`, `Connector`, `Direction`.
-/
import DocumentSql.Text.Case

namespace DocumentSql

/-- What a statement does, by its first word. -/
inductive StatementKind where
  | select
  | insert
  | update
  | delete
  | unknown
deriving DecidableEq

namespace StatementKind

/-- The kind that a first word announces. -/
def ofWord (word : String) : StatementKind :=
  match Text.upper word with
  | "SELECT" => .select
  | "INSERT" => .insert
  | "UPDATE" => .update
  | "DELETE" => .delete
  | _ => .unknown

/-- The written form. -/
def text : StatementKind → String
  | .select => "SELECT"
  | .insert => "INSERT"
  | .update => "UPDATE"
  | .delete => "DELETE"
  | .unknown => "UNKNOWN"

end StatementKind

/-- Which rows without a partner a join keeps. -/
inductive JoinKind where
  | inner
  | left
  | right
  | full
deriving DecidableEq

namespace JoinKind

/-- The kind that a word names. -/
def ofWord? (word : String) : Option JoinKind :=
  match Text.upper word with
  | "INNER" => some .inner
  | "LEFT" => some .left
  | "RIGHT" => some .right
  | "FULL" => some .full
  | _ => none

/-- The written form. -/
def text : JoinKind → String
  | .inner => "INNER"
  | .left => "LEFT"
  | .right => "RIGHT"
  | .full => "FULL"

end JoinKind

/-- A function of all the rows of a group. -/
inductive AggregateFunction where
  | count
  | sum
  | avg
  | min
  | max
deriving DecidableEq

namespace AggregateFunction

/-- The function that a word names. -/
def ofWord? (word : String) : Option AggregateFunction :=
  match Text.upper word with
  | "COUNT" => some .count
  | "SUM" => some .sum
  | "AVG" => some .avg
  | "MIN" => some .min
  | "MAX" => some .max
  | _ => none

/-- The written form. -/
def text : AggregateFunction → String
  | .count => "COUNT"
  | .sum => "SUM"
  | .avg => "AVG"
  | .min => "MIN"
  | .max => "MAX"

end AggregateFunction

/-- How a condition compares a column with a value. -/
inductive Comparison where
  | eq
  | notEq
  | greater
  | less
  | greaterEq
  | lessEq
  | like
  | inList
deriving DecidableEq

namespace Comparison

/-- The comparison that an operator names; one that is not known is read as equality. -/
def ofOperator (operator : String) : Comparison :=
  match Text.upper operator with
  | "=" => .eq
  | "==" => .eq
  | "!=" => .notEq
  | "<>" => .notEq
  | ">" => .greater
  | "<" => .less
  | ">=" => .greaterEq
  | "<=" => .lessEq
  | "LIKE" => .like
  | "IN" => .inList
  | _ => .eq

/-- The written form. -/
def text : Comparison → String
  | .eq => "="
  | .notEq => "!="
  | .greater => ">"
  | .less => "<"
  | .greaterEq => ">="
  | .lessEq => "<="
  | .like => "LIKE"
  | .inList => "IN"

end Comparison

/-- How a condition is joined to the next. -/
inductive Connector where
  | and
  | or
deriving DecidableEq

namespace Connector

/-- The connector that a word names. -/
def ofWord? (word : String) : Option Connector :=
  match Text.upper word with
  | "AND" => some .and
  | "OR" => some .or
  | _ => none

/-- The written form. -/
def text : Connector → String
  | .and => "AND"
  | .or => "OR"

end Connector

/-- The direction of an order. -/
inductive Direction where
  | asc
  | desc
deriving DecidableEq

namespace Direction

/-- The direction that a word names. -/
def ofWord? (word : String) : Option Direction :=
  match Text.upper word with
  | "ASC" => some .asc
  | "DESC" => some .desc
  | _ => none

/-- The written form. -/
def text : Direction → String
  | .asc => "ASC"
  | .desc => "DESC"

end Direction
end DocumentSql
