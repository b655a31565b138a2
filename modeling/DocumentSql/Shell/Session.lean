/-
# Interactive sessions

A session collects lines until one ends in `;`, blanks left aside; the lines so
far, each with a line feed, are then a statement. The words `.exit` and `.quit`
on a line of their own end the session, but only between statements.

Key definitions: `Session`, `Session.feed`, `Session.statements`.
-/
import DocumentSql.Text.Blank

namespace DocumentSql

/-- The lines of a statement that is not complete, each with its line feed. -/
structure Session where
  buffer : String
deriving DecidableEq

namespace Session

/-- What happens upon a line. -/
inductive Reaction where
  /-- The session ends. -/
  | stop
  /-- The statement goes on. -/
  | more (next : Session)
  /-- A statement is complete. -/
  | run (statement : String) (next : Session)
deriving DecidableEq

/-- A session between statements. -/
def start : Session := ⟨""⟩

/-- Whether no statement has been begun. -/
def isBetween (s : Session) : Bool := s.buffer.isEmpty

/-- The text that asks for the next line. -/
def prompt (s : Session) : String := if s.isBetween then "sql> " else "...  "

/-- Whether a line ends a session that is between statements. -/
def isExit (line : String) : Bool := Text.trim line == ".exit" || Text.trim line == ".quit"

/-- Whether a line ends a statement. -/
def endsStatement (line : String) : Bool := (Text.trimChars line.toList).getLast? == some ';'

/-- Takes the next line. -/
def feed (s : Session) (line : String) : Reaction :=
  if s.isBetween && isExit line then .stop
  else if endsStatement line then .run (s.buffer ++ line ++ "\n") start
  else .more ⟨s.buffer ++ line ++ "\n"⟩

/-- The statements of a session, in order, and the session after the last line that was read. -/
def statements (s : Session) : List String → List String × Session
  | [] => ([], s)
  | line :: rest =>
    match s.feed line with
    | .stop => ([], s)
    | .more next => next.statements rest
    | .run statement next => (statement :: (next.statements rest).1, (next.statements rest).2)

end Session
end DocumentSql
