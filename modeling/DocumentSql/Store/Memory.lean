/-
# Tables in memory

A `MemoryStore` holds projects in the order in which they came up, and for
each its tables in the order in which they were last created. Creating a table
of a known name replaces it and moves it to the end, without rows. The
identifier of a table is its project and its name with a colon between them;
that of a document is its table and its place in it, counted from one. Rows are
fetched by the identifier of a table, whatever the project.

Key definitions: `MemoryStore`, `MemoryStore.createTable`,
`MemoryStore.insertRow`, `MemoryStore.fetch`, `MemoryStore.schema`.
-/
import DocumentSql.Decimal.Digits
import DocumentSql.Select.Run

namespace DocumentSql

/-- A table with its documents, oldest first. -/
structure MemoryTable where
  schema : TableSchema
  documents : List Document
deriving DecidableEq

/-- Projects with their tables. -/
structure MemoryStore where
  projects : OrderedMap String (List MemoryTable)

/-- The identifier of a table of a project. -/
def tableId (project table : String) : String := project ++ ":" ++ table

/-- Whether a document satisfies all the predicates. -/
def holdsAll (predicates : List Predicate) (d : Document) : Bool :=
  predicates.all (·.holds d.data)

namespace MemoryTable

/-- The table with one more row, and the identifier of its document. -/
def addRow (t : MemoryTable) (row : Row) : MemoryTable × String :=
  let id := t.schema.name ++ "-" ++ Decimal.natText (t.documents.length + 1)
  ({ t with documents := t.documents ++ [⟨id, row⟩] }, id)

/-- Puts a row into the first table of that name, if there is one. -/
def addRowTo (name : String) (row : Row) : List MemoryTable → Option (List MemoryTable × String)
  | [] => none
  | t :: rest =>
    if t.schema.name = name then some ((t.addRow row).1 :: rest, (t.addRow row).2)
    else (addRowTo name row rest).map fun (tables, id) => (t :: tables, id)

end MemoryTable

namespace MemoryStore

/-- The store without projects. -/
def empty : MemoryStore := ⟨.empty⟩

/-- The tables of a project, none if it is not known. -/
def tablesOf (s : MemoryStore) (project : String) : List MemoryTable :=
  (s.projects.get? project).getD []

/-- The store with a project, which has no tables yet if it is new. -/
def addProject (s : MemoryStore) (project : String) : MemoryStore :=
  ⟨s.projects.insert project (s.tablesOf project)⟩

/-- Creates a table without rows, in place of one of the same name. -/
def createTable (s : MemoryStore) (project name : String) (columns : List String) : MemoryStore :=
  ⟨s.projects.insert project <|
    (s.tablesOf project).filter (·.schema.name != name) ++
      [⟨⟨tableId project name, name, columns⟩, []⟩]⟩

/-- Puts a row at the end of a table; the identifier of its document comes with it. -/
def insertRow (s : MemoryStore) (project table : String) (row : Row) :
    Except StoreError (MemoryStore × String) :=
  match s.projects.get? project with
  | none => .error (.projectNotFound project)
  | some tables =>
    match MemoryTable.addRowTo table row tables with
    | none => .error (.tableMissing table)
    | some (tables, id) => .ok (⟨s.projects.insert project tables⟩, id)

/-- The first table with that identifier, in any project. -/
def tableWithId? (s : MemoryStore) (id : String) : Option MemoryTable :=
  s.projects.values.flatten.find? (·.schema.id == id)

/-- At most `limit` documents of a table that satisfy all the predicates, oldest first. -/
def fetch (s : MemoryStore) : Fetch := fun t predicates limit =>
  match s.tableWithId? t.id with
  | none => .error (.tableIdUnknown t.id)
  | some table => .ok ((table.documents.filter (holdsAll predicates)).take limit)

/-- The schemas of the tables of a project. -/
def schema (s : MemoryStore) (project : String) : Except StoreError ProjectSchema :=
  match s.projects.get? project with
  | none => .error (.projectNotFound project)
  | some tables => .ok ⟨project, tables.map (·.schema)⟩

/-- The store as a source for queries. -/
def source (s : MemoryStore) : RowSource := ⟨s.schema, s.fetch⟩

end MemoryStore
end DocumentSql
