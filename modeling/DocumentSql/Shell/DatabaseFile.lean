/-
# Files of new databases

The path of a database is made simple before it is opened: each `..` takes away
the name before it, and slashes at the end do not count. Every name on the way
has to be one that can be looked at, but nothing need be there but the directory
of the file itself. The file is missing and gets made, or it is empty, as one
with a single byte is taken to be; a device is no file. There has to be room for
a journal, whose name is longer, beside it, a log beside it must be a file, so
that it can be removed, and if a directory is the lock, nothing may be in its
place.

Key definitions: `Location.passed`, `Terminal.openNew`.
-/
import DocumentSql.Shell.Terminal
import DocumentSql.Store.Url

namespace DocumentSql

namespace Location

/-- The locations that are passed on the way from another, where a name leads to each. -/
def passed (l : Location) : List String → List Location
  | [] => []
  | name :: rest =>
    if name = "" ∨ name = "." ∨ name = ".." then (l.step name).passed rest
    else l.step name :: (l.step name).passed rest

end Location

namespace Terminal

variable {m : Type → Type} [Monad m]

/-- The greatest length of the path of a database's journal, in bytes. -/
def journalLimit : Nat := 512

/-- What the path of a journal has behind that of its database. -/
def journalEnd : String := "-journal"

/-- What the path of a log has behind that of its database. -/
def logEnd : String := "-wal"

/-- What the path of a lock has behind that of its database. -/
def lockEnd : String := ".lock"

/-- Whether it can be found out if there is anything at a path. -/
def isVisible (t : Terminal m) (path : String) : m Bool := do
  match ← t.look path with
  | .error .notDirectory => return false
  | .error .nameTooLong => return false
  | _ => return path.utf8ByteSize < journalLimit

/-- Whether there is anything at a path. -/
def isTaken (t : Terminal m) (path : String) : m Bool := do
  match ← t.look path with
  | .ok _ => return true
  | .error _ => return false

/-- Whether there can be a journal at a path. -/
def hasRoom (t : Terminal m) (path : String) : m Bool := do
  match ← t.read path with
  | .ok _ => return true
  | .error .missing => return path.utf8ByteSize ≤ journalLimit
  | .error _ => return false

/-- Whether nothing that is not a file is at the path of a log. -/
def canRemove (t : Terminal m) (path : String) : m Bool := do
  match ← t.read path with
  | .error .isDirectory => return false
  | _ => return true

/-- The greatest number of bytes in a file that is taken to be empty. -/
def emptyLimit : Nat := 1

/-- Whether there is an empty file at a path, which may get made. -/
def hasEmpty (t : Terminal m) (path : String) (mayCreate : Bool) : m Bool := do
  match ← t.read path with
  | .ok text => return text.utf8ByteSize ≤ emptyLimit
  | .error .missing =>
    if mayCreate then
      match ← t.write path "" with
      | .ok _ => return true
      | .error _ => return false
    else return false
  | .error _ => return false

/-- Whether the places beside the file of a database are as they have to be. -/
def hasSurroundings (t : Terminal m) (f : DatabaseFile) (path : String) : m Bool := do
  let room ← t.hasRoom (path ++ journalEnd)
  let removable ← t.canRemove (path ++ logEnd)
  let locked ← t.isTaken (path ++ lockEnd)
  return room && removable && !(f.hasLock && locked)

/-- Whether the file is there of which access rights are to be taken, if there is to be one. -/
def hasPattern (t : Terminal m) (f : DatabaseFile) : m Bool := do
  match f.pattern with
  | none => return true
  | some path => t.isTaken path

/-- Opens the file of a new database; the result says whether it went well. -/
def openNew (t : Terminal m) (f : DatabaseFile) : m Bool := do
  let origin := Location.origin (← t.workingDirectory) f.path
  let names := f.path.splitOn "/"
  let file := names.foldl Location.step origin
  let visible ← (origin.passed names).allM fun l => t.isVisible l.path
  let patterned ← t.hasPattern f
  if visible && patterned && !file.isEmpty && (Device.at? file).isNone then
    if ← t.hasEmpty file.path f.mayCreate then t.hasSurroundings f file.path else return false
  else return false

end Terminal
end DocumentSql
