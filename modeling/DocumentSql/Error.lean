/-
# What can go wrong with a query

A query fails because its text is no statement, because it asks for something
that is not offered, because it names a table or column that is not there, or
because the store fails.

Key definitions: `StoreError`, `Unsupported`, `QueryError`, and their
`message`s.
-/
import DocumentSql.FileError
import DocumentSql.Sql.Keyword

namespace DocumentSql

/-- Why a store cannot do what it is asked. -/
inductive StoreError where
  /-- The project is there, but not this table. -/
  | tableMissing (name : String)
  /-- No table has this identifier. -/
  | tableIdUnknown (id : String)
  | projectNotFound (id : String)
  /-- A text is not the JSON that it should be. -/
  | malformedJson
  /-- A file cannot be read. -/
  | fileUnreadable (cause : FileError)
  /-- A database cannot be opened. -/
  | databaseUnavailable
  /-- A column has a name by which no cell can be looked up. -/
  | columnUnreadable
  /-- A pattern or a list of conditions is longer than a database takes. -/
  | conditionTooLong
deriving DecidableEq

namespace StoreError

/-- The message for the asker. -/
def message : StoreError → String
  | .tableMissing name => "row store error: table '" ++ name ++ "' does not exist"
  | .tableIdUnknown id => "row store error: unknown table id '" ++ id ++ "'"
  | .projectNotFound id => "project '" ++ id ++ "' not found"
  | .malformedJson => "malformed JSON"
  | .fileUnreadable cause => cause.message
  | .databaseUnavailable => "cannot open database"
  | .columnUnreadable => "cannot look up column"
  | .conditionTooLong => "condition too long"

end StoreError

/-- What a statement can ask for that is not offered. -/
inductive Unsupported where
  | statement (kind : StatementKind)
  | selfJoin (table : String)
  | joinKind (kind : JoinKind)
  | joinOperator (operator : String)
  | inCondition (column : String)
  | orCondition
  | crossJoin (table : String)
deriving DecidableEq

namespace Unsupported

/-- The name of what is asked for. -/
def text : Unsupported → String
  | .statement kind => kind.text ++ " statements"
  | .selfJoin table => "self join on '" ++ table ++ "'"
  | .joinKind kind => "join type " ++ kind.text ++ " JOIN"
  | .joinOperator operator => "join operator '" ++ operator ++ "'"
  | .inCondition column => "IN condition on '" ++ column ++ "'"
  | .orCondition => "OR between WHERE conditions"
  | .crossJoin table => "implicit cross join with '" ++ table ++ "'"

end Unsupported

/-- Why a query has no result. -/
inductive QueryError where
  /-- The text is no statement; the message says why. -/
  | invalid (message : String)
  /-- The statement names no table. -/
  | noTable
  | unsupported (feature : Unsupported)
  | tableNotFound (name : String)
  | columnNotFound (column table : String)
  /-- The rows of a table cannot be had. -/
  | store (table : String) (cause : StoreError)
  /-- The schema of the project cannot be had. -/
  | catalog (cause : StoreError)
deriving DecidableEq

namespace QueryError

/-- The message for the asker. -/
def message : QueryError → String
  | .invalid message => "parse error: " ++ message
  | .noTable => "parse error: no table referenced"
  | .unsupported feature => "unsupported feature: " ++ feature.text
  | .tableNotFound name => "table '" ++ name ++ "' not found"
  | .columnNotFound column table => "column '" ++ column ++ "' not found in table '" ++ table ++ "'"
  | .store table cause => "failed to fetch rows from '" ++ table ++ "': " ++ cause.message
  | .catalog cause => "failed to load schema: " ++ cause.message

end QueryError
end DocumentSql
