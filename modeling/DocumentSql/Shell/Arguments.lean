/-
# Command-line arguments

The command line names a project, where its rows are, the format of results, a
file to save them in, and a statement. Every option takes a value: behind its
long name after `=` or as the next argument, behind its letter at once, after
`=` or as the next argument. A value that is an argument of its own does not
begin with `-`, the argument `-` aside. Behind the argument `--` there are no
options. Each option, and the statement, is given once at most.

Key definitions: `Arguments`, `Arguments.items`, `Arguments.ofItems`,
`Arguments.ofList`.
-/
import DocumentSql.Report.Format

namespace DocumentSql

/-- An option of the command line. -/
inductive CommandOption where
  | project
  | fixture
  | database
  | format
  | output
deriving DecidableEq

namespace CommandOption

/-- The option of that long name. -/
def ofName? : String → Option CommandOption
  | "project" => some .project
  | "fixture" => some .fixture
  | "database" => some .database
  | "format" => some .format
  | "output" => some .output
  | _ => none

/-- The option of that letter. -/
def ofLetter? : Char → Option CommandOption
  | 'p' => some .project
  | 'f' => some .format
  | 'o' => some .output
  | _ => none

/-- The long name, as it is written. -/
def text : CommandOption → String
  | .project => "--project"
  | .fixture => "--fixture"
  | .database => "--database"
  | .format => "--format"
  | .output => "--output"

/-- Whether the value names a file and so cannot be empty. -/
def namesFile : CommandOption → Bool
  | .fixture => true
  | .output => true
  | _ => false

end CommandOption

/-- Why arguments cannot be used. -/
inductive UsageError where
  | unknownOption (argument : String)
  | missingValue (option : CommandOption)
  | emptyValue (option : CommandOption)
  | unknownFormat (name : String)
  | repeated (option : CommandOption)
  | secondStatement (argument : String)
  | noProject
  /-- Both a fixture and a database are given. -/
  | twoSources
deriving DecidableEq

namespace UsageError

/-- The message for the asker. -/
def message : UsageError → String
  | .unknownOption argument => "unexpected argument '" ++ argument ++ "' found"
  | .missingValue option => "a value is required for '" ++ option.text ++ "' but none was supplied"
  | .emptyValue option => "the value of '" ++ option.text ++ "' is empty"
  | .unknownFormat name => "invalid value '" ++ name ++ "' for '--format'"
  | .repeated option => "the argument '" ++ option.text ++ "' cannot be used multiple times"
  | .secondStatement argument => "unexpected argument '" ++ argument ++ "' found"
  | .noProject => "the required argument '--project' was not provided"
  | .twoSources => "the argument '--fixture' cannot be used with '--database'"

end UsageError

/-- What the command line asks for. -/
structure Arguments where
  project : String
  fixture : Option String
  database : Option String
  format : Report.Format
  output : Option String
  /-- The statement to run; without one, statements are read line by line. -/
  statement : Option String
deriving DecidableEq

namespace Arguments

/-- One item of the command line. -/
inductive Item where
  | option (option : CommandOption) (value : String)
  | plain (argument : String)
deriving DecidableEq

/-- An argument by itself. -/
inductive Reading where
  /-- The end of the options. -/
  | endOfOptions
  /-- An option with its value. -/
  | full (option : CommandOption) (value : String)
  /-- An option whose value is the next argument. -/
  | expecting (option : CommandOption)
  | plain
  | unknown
deriving DecidableEq

/-- An option and what is attached to it. -/
def attached (option : Option CommandOption) (value : Option (List Char)) : Reading :=
  match option, value with
  | none, _ => .unknown
  | some o, some cs => .full o (String.ofList cs)
  | some o, none => .expecting o

/-- The characters behind the first equals sign, if there is one. -/
def behindEquals : List Char → Option (List Char)
  | [] => none
  | c :: cs => if c = '=' then some cs else behindEquals cs

/-- What is attached to a letter: an equals sign in front of it is left out. -/
def behindLetter : List Char → Option (List Char)
  | [] => none
  | '=' :: cs => some cs
  | cs => some cs

/-- Reads an argument in front of which the options have not ended. -/
def reading (argument : String) : Reading :=
  match argument.toList with
  | ['-', '-'] => .endOfOptions
  | '-' :: '-' :: cs =>
    attached (CommandOption.ofName? (String.ofList (cs.takeWhile (· != '=')))) (behindEquals cs)
  | ['-'] => .plain
  | '-' :: c :: cs => attached (CommandOption.ofLetter? c) (behindLetter cs)
  | _ => .plain

/-- The items of the arguments. -/
def items : List String → Except UsageError (List Item)
  | [] => .ok []
  | argument :: rest =>
    match reading argument with
    | .endOfOptions => .ok (rest.map .plain)
    | .full o value => (items rest).map (.option o value :: ·)
    | .plain => (items rest).map (.plain argument :: ·)
    | .unknown => .error (.unknownOption argument)
    | .expecting o =>
      match rest with
      | [] => .error (.missingValue o)
      | value :: behind =>
        if reading value = .plain then (items behind).map (.option o value :: ·)
        else .error (.missingValue o)

/-- The values given for an option. -/
def valuesOf (option : CommandOption) (is : List Item) : List String :=
  is.filterMap fun
    | .option o value => if o = option then some value else none
    | .plain _ => none

/-- The arguments that belong to no option. -/
def plains (is : List Item) : List String :=
  is.filterMap fun
    | .option _ _ => none
    | .plain argument => some argument

/-- The value of an option, if it is given. -/
def value? (option : CommandOption) (is : List Item) : Except UsageError (Option String) :=
  match valuesOf option is with
  | [] => .ok none
  | [value] => if option.namesFile && value.isEmpty then .error (.emptyValue option) else .ok value
  | _ => .error (.repeated option)

/-- The statement, if one is given. -/
def statement? (is : List Item) : Except UsageError (Option String) :=
  match plains is with
  | [] => .ok none
  | [statement] => .ok statement
  | _ :: second :: _ => .error (.secondStatement second)

/-- The format of that name, or the aligned table if none is named. -/
def formatOf : Option String → Except UsageError Report.Format
  | none => .ok .table
  | some name =>
    match Report.Format.ofName? name with
    | some format => .ok format
    | none => .error (.unknownFormat name)

/-- What the items ask for. -/
def ofItems (is : List Item) : Except UsageError Arguments := do
  let project ← value? .project is
  let fixture ← value? .fixture is
  let database ← value? .database is
  let format ← formatOf (← value? .format is)
  let output ← value? .output is
  let statement ← statement? is
  if fixture.isSome && database.isSome then throw .twoSources
  match project with
  | none => throw .noProject
  | some project => return { project, fixture, database, format, output, statement }

/-- What the arguments ask for. -/
def ofList (arguments : List String) : Except UsageError Arguments := do ofItems (← items arguments)

end Arguments
end DocumentSql
