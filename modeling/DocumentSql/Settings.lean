/-
# Settings

The settings say how many rows are fetched of each table at most, and where
rows come from if the command line does not say. They are read from a JSON file
in the data directory, in which every field may be left out; a file that does
not hold settings counts as missing. Variables then replace single settings: a
row cap has to be a positive number, and an empty text changes nothing.

Key definitions: `Settings`, `Settings.ofFile`, `Settings.withVariables`,
`Settings.dataDirectory`.
-/
import DocumentSql.Json.Reader
import DocumentSql.Json.Record
import DocumentSql.Settings.Variables

namespace DocumentSql

/-- What can be set outside the command line. -/
structure Settings where
  rowCap : Nat := 1000
  databaseUrl : Option String := none
  fixturePath : Option String := none
deriving DecidableEq

namespace Settings

/-- Reads settings from a record; fields that are left out have their defaults. -/
def ofRecord? (v : Json) : Option Settings := do
  let default : Settings := {}
  match ← Json.fields? [["row_cap"], ["database_url"], ["fixture_path"]] v with
  | [rowCap, databaseUrl, fixturePath] =>
    return {
      rowCap := ← Json.orDefault? default.rowCap Json.natural? rowCap
      databaseUrl := ← Json.orDefault? none (Json.orNull? Json.text?) databaseUrl
      fixturePath := ← Json.orDefault? none (Json.orNull? Json.text?) fixturePath }
  | _ => none

/-- The settings in a file, or the defaults if there is no file or it does not hold settings. -/
def ofFile (text : Option String) : Settings :=
  ((text.bind Json.ofText?).bind ofRecord?).getD {}

/-- The positive number below `2^64` that a text writes between blanks, a plus sign allowed. -/
def rowCap? (text : String) : Option Nat :=
  let cs := Text.trimChars text.toList
  let digits := match cs with
    | '+' :: rest => rest
    | rest => rest
  (Decimal.natural? digits).filter fun n => 0 < n && n < UInt64.size

/-- The value of a variable that is not empty. -/
def nonEmpty? (vars : Variables) (name : String) : Option String :=
  (vars.get? name).filter (!·.isEmpty)

/-- The settings with those that variables replace. -/
def withVariables (s : Settings) (vars : Variables) : Settings where
  rowCap := ((vars.get? "DOCQUERY_ROW_CAP").bind rowCap?).getD s.rowCap
  databaseUrl := (nonEmpty? vars "DOCQUERY_DATABASE_URL").or s.databaseUrl
  fixturePath := (nonEmpty? vars "DOCQUERY_FIXTURE").or s.fixturePath

/-- A path inside a directory. -/
def joinPath (directory name : String) : String :=
  if directory.endsWith "/" then directory ++ name else directory ++ "/" ++ name

/-- The home directory where none is given. -/
def accountHome : String := "/root"

/-- The directory of the settings file: the one asked for, if its path begins at the root, or else a
hidden one in the home directory. -/
def dataDirectory (home : String) (custom : Option String) : String :=
  match custom.filter (·.startsWith "/") with
  | some path => path
  | none => joinPath (if home.isEmpty then accountHome else home) ".docquery"

end Settings
end DocumentSql
