/-
# Schemas

A project is a named collection of tables. A table's schema gives the names of
its columns in order; rows may lack some of them and hold others.

Key definitions: `TableSchema`, `ProjectSchema`, `ProjectSchema.table?`.
-/

namespace DocumentSql

/-- What is known of a table without looking at its rows. -/
structure TableSchema where
  id : String
  name : String
  columns : List String
deriving DecidableEq

namespace TableSchema

/-- Whether the table lists a column. -/
def hasColumn (t : TableSchema) (column : String) : Bool := t.columns.contains column

end TableSchema

/-- The tables of a project. -/
structure ProjectSchema where
  projectId : String
  tables : List TableSchema
deriving DecidableEq

namespace ProjectSchema

/-- The first table of that name. -/
def table? (p : ProjectSchema) (name : String) : Option TableSchema :=
  p.tables.find? (·.name == name)

end ProjectSchema
end DocumentSql
