/-
# Reading JSON

A machine reads the tokens one by one. Its state is the list of the arrays and
objects that are still open, innermost first, each with what has been read of
it, and what may come next. The machine has no limit on nesting; `Json.normal?`
has one. An object with a name that has no text is unreadable as a whole.

Key definitions: `Json.Frame`, `Json.State`, `Json.State.step?`,
`Json.ofText?`, `Json.document?`.
-/
import DocumentSql.Json.Token

namespace DocumentSql
namespace Json

/-- A member as it is read: its name may have no text. -/
abbrev NamedValue := Option String × Json

/-- An open array with its items so far, or an open object with its members so far and the name
whose value is being read; the latest first. -/
inductive Frame where
  | array (items : List Json)
  | object (members : List NamedValue) (key : Option String)

/-- The object with these members. -/
def ofNamed (members : List NamedValue) : Json :=
  match members.mapM fun m => m.1.map fun key => (key, m.2) with
  | some members => .obj members
  | none => .unreadable

/-- The value of a string, given by its text. -/
def ofStringToken : Option String → Json
  | some s => .str s
  | none => .unreadable

/-- What may come next. -/
inductive State where
  /-- A value. -/
  | value (open_ : List Frame)
  /-- The first item of an array, or its end. -/
  | firstItem (open_ : List Frame)
  /-- The first name of an object, or its end. -/
  | firstName (open_ : List Frame)
  /-- The next name of an object. -/
  | name (members : List NamedValue) (open_ : List Frame)
  /-- The colon behind a name. -/
  | colon (members : List NamedValue) (key : Option String) (open_ : List Frame)
  /-- What follows a complete value: a comma, the end of its container, or the end of the text. -/
  | done (v : Json) (open_ : List Frame)

namespace State

/-- Begins a value: a string and a leaf are complete, a bracket opens a container. -/
def beginValue? (open_ : List Frame) : Token → Option State
  | .string text => some (.done (ofStringToken text) open_)
  | .leaf v => some (.done v open_)
  | .openArray => some (.firstItem open_)
  | .openObject => some (.firstName open_)
  | _ => none

/-- Reads the name of a member. -/
def readName? (members : List NamedValue) (open_ : List Frame) : Token → Option State
  | .string key => some (.colon members key open_)
  | _ => none

/-- The state after one more token, if the token may come here. -/
def step? : State → Token → Option State
  | .value open_, t => beginValue? open_ t
  | .firstItem open_, .closeArray => some (.done (.arr []) open_)
  | .firstItem open_, t => beginValue? (.array [] :: open_) t
  | .firstName open_, .closeObject => some (.done (.obj []) open_)
  | .firstName open_, t => readName? [] open_ t
  | .name members open_, t => readName? members open_ t
  | .colon members key open_, .colon => some (.value (.object members key :: open_))
  | .colon _ _ _, _ => none
  | .done v (.array items :: open_), .comma => some (.value (.array (v :: items) :: open_))
  | .done v (.array items :: open_), .closeArray =>
    some (.done (.arr (v :: items).reverse) open_)
  | .done v (.object members key :: open_), .comma =>
    some (.name ((key, v) :: members) open_)
  | .done v (.object members key :: open_), .closeObject =>
    some (.done (ofNamed ((key, v) :: members).reverse) open_)
  | .done _ _, _ => none

/-- The state after all the tokens. -/
def run? : State → List Token → Option State
  | s, [] => some s
  | s, t :: ts =>
    match s.step? t with
    | some s => s.run? ts
    | none => none

end State

/-- The value that the tokens write, if they write exactly one. -/
def ofTokens? (ts : List Token) : Option Json :=
  match (State.value []).run? ts with
  | some (.done v []) => some v
  | _ => none

/-- The value that a text writes, repeated names and unreadable values kept. -/
def ofText? (s : String) : Option Json :=
  (tokens? s.toList).bind ofTokens?

/-- The value of a text that is read as a whole: see `normal?`. -/
def document? (s : String) : Option Json :=
  (ofText? s).bind normal?

end Json
end DocumentSql
