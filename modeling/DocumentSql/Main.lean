/-
# The command line

The program on the files, streams, variables and clock of the computer.

Key definition: `main`.
-/
import DocumentSql.Shell.Program

namespace DocumentSql

/-- The number of an error, which may come with the other sign. -/
def errorNumber (code : UInt32) : UInt32 := min code (0 - code)

/-- What an error of the computer means for a file. -/
def FileError.ofError : IO.Error → FileError
  | .noFileOrDirectory .. => .missing
  | .noSuchThing .. => .missing
  | .resourceExhausted _ code details =>
    if errorNumber code = 28 then .noSpace
    else .other (toString (IO.Error.resourceExhausted none code details))
  | .inappropriateType _ code _ => if errorNumber code = 20 then .notDirectory else .isDirectory
  | .invalidArgument file code details =>
    if errorNumber code = 36 then .nameTooLong
    else .other (toString (IO.Error.invalidArgument file code details))
  | e => .other (toString e)

/-- The result of an action on a file. -/
def attempt {α : Type} (action : IO α) : IO (Except FileError α) := do
  try
    return .ok (← action)
  catch e => return .error (.ofError e)

/-- The terminal of the computer. -/
def computer : Terminal IO where
  read path := attempt (IO.FS.readFile path)
  look path := attempt do let _ ← IO.FS.Handle.mk path .read
  write path text := attempt (IO.FS.writeFile path text)
  print text := IO.print text
  complain text := IO.eprint text
  milliseconds := IO.monoMsNow
  workingDirectory := do return ((← IO.currentDir).toString.splitOn "/").filter (· != "")

/-- The names of the variables that the program looks at. -/
def variableNames : List String :=
  ["HOME", "DOCQUERY_DATA_DIR", "DOCQUERY_ROW_CAP", "DOCQUERY_DATABASE_URL", "DOCQUERY_FIXTURE"]

/-- The variables that are set. -/
def environment : IO Variables := do
  let found ← variableNames.filterMapM fun name => do
    return (← IO.getEnv name).map fun v => (name, v)
  return .ofList found

/-- Reads a session line by line until it ends or there are no more lines; the result is the exit
code. -/
partial def converse (p : Program) (input output : IO.FS.Stream) (s : Session) : IO UInt32 := do
  computer.print s.prompt
  output.flush
  let line ← input.getLine
  match Text.lines line.toList with
  | [] => return 0
  | cs :: _ =>
    match ← p.takeLine computer s (String.ofList cs) with
    | .error code => return code
    | .ok next => converse p input output next

end DocumentSql

open DocumentSql in
/-- Runs the program. -/
def main (arguments : List String) : IO UInt32 := do
  let input ← IO.getStdin
  let output ← IO.getStdout
  runProgram computer (← environment) arguments fun p => converse p input output .start
