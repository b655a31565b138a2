/-
# JSON values

`Json` is a value as it stands in a text: members in the order in which they
are written, a repeated name as often as it is written. Whole numbers from
`-2^63` to `2^64 - 1` are integers and all other numbers doubles. A value that
keeps to the grammar and still stands for nothing is `unreadable`: a number
beyond the doubles, a string with half of a surrogate pair, an object with such
a string for a name. A reader that skips the member it stands in need not refuse
the text.

`normal?` gives the value that a reader of whole documents sees: nothing
unreadable, at most 127 arrays and objects inside each other, and of a repeated
name the last value at the first place.

Key definitions: `Json`, `Json.depth`, `Json.normal?`.
-/
import DocumentSql.Binary64.Text
import DocumentSql.OrderedMap

namespace DocumentSql

/-- A JSON value. -/
inductive Json where
  | null
  | bool (b : Bool)
  | int (i : Int)
  | float (x : Binary64)
  | str (s : String)
  | arr (items : List Json)
  | obj (members : List (String × Json))
  | unreadable

namespace Json

instance : Inhabited Json := ⟨.null⟩

mutual

/-- How many arrays and objects stand inside each other at most. -/
def depth : Json → Nat
  | .arr items => depthItems items + 1
  | .obj members => depthMembers members + 1
  | _ => 0

/-- The greatest depth among the items. -/
def depthItems : List Json → Nat
  | [] => 0
  | v :: rest => max v.depth (depthItems rest)

/-- The greatest depth among the members. -/
def depthMembers : List (String × Json) → Nat
  | [] => 0
  | (_, v) :: rest => max v.depth (depthMembers rest)

end

mutual

/-- The value with every name once, unless something in it is unreadable. -/
def mergeNames : Json → Option Json
  | .unreadable => none
  | .arr items => (mergeItems items).map .arr
  | .obj members => (mergeMembers members).map fun ms => .obj (OrderedMap.ofList ms).entries
  | v => some v

/-- `mergeNames` on each item. -/
def mergeItems : List Json → Option (List Json)
  | [] => some []
  | v :: rest =>
    match mergeNames v, mergeItems rest with
    | some v, some rest => some (v :: rest)
    | _, _ => none

/-- `mergeNames` on each value. -/
def mergeMembers : List (String × Json) → Option (List (String × Json))
  | [] => some []
  | (name, v) :: rest =>
    match mergeNames v, mergeMembers rest with
    | some v, some rest => some ((name, v) :: rest)
    | _, _ => none

end

/-- How deep a document may nest its arrays and objects. -/
def depthLimit : Nat := 127

/-- The value of a whole document, if it is readable and not nested too deeply. -/
def normal? (v : Json) : Option Json :=
  if v.depth ≤ depthLimit then v.mergeNames else none

end Json
end DocumentSql
