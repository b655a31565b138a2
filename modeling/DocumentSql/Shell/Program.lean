/-
# The program

Arguments are looked at first, then the settings: the file in the data
directory, and over it variables, to which a file `.env` in the working
directory adds those that are not set. The row source is the database or the
fixture of the arguments, or else the fixture, or else the database, of the
settings. A database starts empty.

With a statement in the arguments the program runs it and ends, with exit code
1 if it fails. Without one it reads a session, whose failing statements do not
end it. Results are printed, or saved if a file is named. A result of which there
is no table ends the program, and the session with it, if a table is asked for.
Exit code 2 means that the arguments cannot be used, 1 that there is no row
source, and 101 that a variable of the file cannot be set or that there is no
table.

Key definitions: `Arguments.backend?`, `Program`, `Program.start`,
`Program.Outcome`, `Program.runStatement`, `Program.takeLine`, `run`.
-/
import DocumentSql.Settings
import DocumentSql.Shell.Arguments
import DocumentSql.Shell.DatabaseFile
import DocumentSql.Shell.Session
import DocumentSql.Store.Fixture
import DocumentSql.Store.Serialized
import DocumentSql.Store.Url

namespace DocumentSql

/-- Where the rows of a program are. -/
inductive Backend where
  | fixture (path : String)
  | database (url : String)
deriving DecidableEq

namespace Arguments

/-- The place of the rows, from the arguments and the settings. -/
def backend? (a : Arguments) (s : Settings) : Option Backend :=
  match a.database with
  | some url => some (.database url)
  | none =>
    match a.fixture.or s.fixturePath with
    | some path => some (.fixture path)
    | none => s.databaseUrl.map .database

end Arguments

/-- Why a program does not get to its statements. -/
inductive StartError where
  /-- A variable of the file of variables cannot be set. -/
  | variableUnusable
  | usage (cause : UsageError)
  | noSource
  | store (cause : StoreError)
deriving DecidableEq

namespace StartError

/-- The text for the error output. -/
def message : StartError → String
  | .variableUnusable => "failed to set a variable\n"
  | .usage cause => "error: " ++ cause.message ++ "\n"
  | .noSource => "Error: \"no row store configured: pass --fixture or --database\"\n"
  | .store (.fileUnreadable cause) => "Error: Io(" ++ cause.record ++ ")\n"
  | .store cause => "Error: " ++ cause.message ++ "\n"

/-- The exit code. -/
def exitCode : StartError → UInt32
  | .variableUnusable => 101
  | .usage _ => 2
  | .noSource => 1
  | .store _ => 1

end StartError

/-- A program that has found its rows. -/
structure Program where
  arguments : Arguments
  rowCap : Nat
  source : RowSource

namespace Program

variable {m : Type → Type} [Monad m]

/-- Opens a database, which is empty. -/
def openDatabase (t : Terminal m) (url : String) : m (Except StoreError RowSource) := do
  match DatabaseUrl.ofText? url with
  | none => return .error .databaseUnavailable
  | some .memory => return .ok SerializedStore.empty.source
  | some (.file f) =>
    return if ← t.openNew f then .ok SerializedStore.empty.source
      else .error .databaseUnavailable

/-- Reads a fixture. -/
def openFixture (t : Terminal m) (path : String) : m (Except StoreError RowSource) := do
  match ← t.read path with
  | .error e => return .error (.fileUnreadable e)
  | .ok text => return (MemoryStore.ofText text).map MemoryStore.source

/-- Opens the place of the rows. -/
def openBackend (t : Terminal m) : Backend → m (Except StoreError RowSource)
  | .fixture path => openFixture t path
  | .database url => openDatabase t url

/-- The variables together with those of the file in the working directory. -/
def loadVariables? (t : Terminal m) (vars : Variables) : m (Option Variables) := do
  match ← t.read ".env" with
  | .ok text => return vars.withFile? text
  | .error _ => return vars

/-- The settings of the file in the data directory, with those that variables replace. -/
def loadSettings (t : Terminal m) (vars : Variables) : m Settings := do
  let directory := Settings.dataDirectory ((vars.get? "HOME").getD "")
    (vars.get? "DOCQUERY_DATA_DIR")
  let text ← t.read (Settings.joinPath directory "config.json")
  return (Settings.ofFile text.toOption).withVariables vars

/-- Starts a program. -/
def start (t : Terminal m) (vars : Variables) (arguments : List String) :
    m (Except StartError Program) := do
  match ← loadVariables? t vars with
  | none => return .error .variableUnusable
  | some vars =>
    match Arguments.ofList arguments with
    | .error e => return .error (.usage e)
    | .ok arguments =>
      let settings ← loadSettings t vars
      match arguments.backend? settings with
      | none => return .error .noSource
      | some backend =>
        match ← openBackend t backend with
        | .error e => return .error (.store e)
        | .ok source => return .ok ⟨arguments, settings.rowCap, source⟩

/-- How a statement ends. -/
inductive Outcome where
  /-- Its result has been printed or saved. -/
  | done
  /-- It has failed with a message. -/
  | failed
  /-- Its result cannot be written, which ends the program. -/
  | aborted
deriving DecidableEq

/-- The exit code of a program that ends with such a statement. -/
def Outcome.exitCode : Outcome → UInt32
  | .done => 0
  | .failed => 1
  | .aborted => 101

/-- Writes a message to the error output. -/
def fail (t : Terminal m) (message : String) : m Outcome := do
  t.complain ("Error: " ++ message ++ "\n")
  return .failed

/-- Writes to the error output that a text cannot be padded. -/
def abort (t : Terminal m) : m Outcome := do
  t.complain "Formatting argument out of range\n"
  return .aborted

/-- What is printed once a result has been saved. -/
def savedLine (rowCount : Nat) (path : String) : String :=
  "(" ++ Decimal.natText rowCount ++ " rows saved to " ++ path ++ ")\n"

/-- Prints an answer, or saves it if the arguments name a file. -/
def deliver (p : Program) (t : Terminal m) (answer : Answer) : m Outcome := do
  match p.arguments.output with
  | none =>
    match Report.renderLine? p.arguments.format answer with
    | none => abort t
    | some text =>
      t.print text
      return .done
  | some path =>
    match Report.render? p.arguments.format answer with
    | none => abort t
    | some text =>
      match ← t.write path text with
      | .error e => fail t e.message
      | .ok _ =>
        t.print (savedLine answer.rowCount path)
        return .done

/-- Runs a statement. -/
def runStatement (p : Program) (t : Terminal m) (sql : String) : m Outcome := do
  let before ← t.milliseconds
  match p.source.answer p.rowCap p.arguments.project sql with
  | .error e => fail t e.message
  | .ok answer =>
    let after ← t.milliseconds
    p.deliver t { answer with milliseconds := after - before }

/-- The line that opens a session. -/
def greeting (p : Program) : String :=
  "docquery on project '" ++ p.arguments.project ++ "' (type '.exit' or '.quit' to stop)\n"

/-- Takes a line of a session. An exit code in place of the session means that the program ends. -/
def takeLine (p : Program) (t : Terminal m) (s : Session) (line : String) :
    m (Except UInt32 Session) := do
  match s.feed line with
  | .stop => return .error 0
  | .more next => return .ok next
  | .run statement next =>
    match ← p.runStatement t statement with
    | .aborted => return .error Outcome.aborted.exitCode
    | _ => return .ok next

/-- Runs a session on the lines; the result is the exit code. -/
def runLines (p : Program) (t : Terminal m) (s : Session) : List String → m UInt32
  | [] => do
    t.print s.prompt
    return 0
  | line :: rest => do
    t.print s.prompt
    match ← p.takeLine t s line with
    | .error code => return code
    | .ok next => p.runLines t next rest

/-- Runs the statement of the arguments, or else a session that `session` reads. -/
def runWith (p : Program) (t : Terminal m) (session : m UInt32) : m UInt32 := do
  match p.arguments.statement with
  | some sql => return (← p.runStatement t sql).exitCode
  | none =>
    t.print p.greeting
    session

end Program

/-- The exit code of the whole program, a session of which `session` reads. -/
def runProgram {m : Type → Type} [Monad m] (t : Terminal m) (vars : Variables)
    (arguments : List String) (session : Program → m UInt32) : m UInt32 := do
  match ← Program.start t vars arguments with
  | .error e =>
    t.complain e.message
    return e.exitCode
  | .ok p => p.runWith t (session p)

namespace Machine

/-- Runs a session on the lines of the input that is left. -/
def session (p : Program) : StateM Machine UInt32 := do
  let input ← modifyGet takeInput
  p.runLines terminal .start ((Text.lines input.toList).map String.ofList)

/-- Runs the program on a machine. -/
def run (w : Machine) (vars : Variables) (arguments : List String) : UInt32 × Machine :=
  (runProgram terminal vars arguments session).run w

end Machine
end DocumentSql
