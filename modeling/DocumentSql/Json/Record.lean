/-
# Records in JSON

A record is read from an object by the names of its fields, or from an array
by their order. Members with other names are ignored, whatever they hold; a
field that is named twice spoils the record, and so do items behind the last
field.

Key definition: `Json.fields?`.
-/
import DocumentSql.Json.Basic

namespace DocumentSql
namespace Json

/-- The values of the members that carry one of the names. -/
def valuesOf (names : List String) (members : List (String × Json)) : List Json :=
  (members.filter fun m => names.contains m.1).map (·.2)

/-- The value of the field with the given names: nothing if no member has one of them, and no
reading at all if several have. -/
def field? (members : List (String × Json)) (names : List String) : Option (Option Json) :=
  match valuesOf names members with
  | [] => some none
  | [v] => some (some v)
  | _ => none

/-- The values of the fields of a record, each given by the names that it goes under. -/
def fields? (fields : List (List String)) : Json → Option (List (Option Json))
  | .obj members => fields.mapM (field? members)
  | .arr items =>
    if items.length ≤ fields.length then
      some (items.map some ++ List.replicate (fields.length - items.length) none)
    else none
  | _ => none

/-- The text that a value is. -/
def text? : Json → Option String
  | .str s => some s
  | _ => none

/-- The natural number below `2^64` that a value is. -/
def natural? : Json → Option Nat
  | .int i => if 0 ≤ i then some i.toNat else none
  | _ => none

/-- The items of an array, read one by one. -/
def list? {α : Type} (read : Json → Option α) : Json → Option (List α)
  | .arr items => items.mapM read
  | _ => none

/-- A value that may be null. -/
def orNull? {α : Type} (read : Json → Option α) : Json → Option (Option α)
  | .null => some none
  | v => (read v).map some

/-- A field that may be left out. -/
def orDefault? {α : Type} (default : α) (read : Json → Option α) : Option Json → Option α
  | none => some default
  | some v => read v

end Json
end DocumentSql
