/-
# Files

A tree of text files with a working directory. A path is followed name by name
from the root or from the working directory; every name but the last has to be
a directory. A directory is there if a file, the working directory or one of the
directories that are always there is below it. A name has at most 255 bytes.
Writing makes no directories, and a path with a slash at its end names no file
that could be written. Devices are no directories either.

Key definitions: `Location`, `Files`, `Files.walk`, `Files.source`,
`Files.target`, `Files.read`, `Files.write`.
-/
import DocumentSql.FileError
import DocumentSql.OrderedMap
import DocumentSql.Shell.Device

namespace DocumentSql

/-- The names on the way from the root to a file or directory. -/
abbrev Location := List String

namespace Location

/-- The location that a name leads to from another. An empty name and `.` lead nowhere else, and
`..` leads back. -/
def step (l : Location) (name : String) : Location :=
  if name = "" ∨ name = "." then l else if name = ".." then l.dropLast else l ++ [name]

/-- The path from the root. -/
def path (l : Location) : String := "/" ++ "/".intercalate l

/-- The location where a path begins, given the working directory. -/
def origin (workingDirectory : Location) (path : String) : Location :=
  if path.startsWith "/" then [] else workingDirectory

end Location

/-- The texts of files, the directories that are there without them, and the working directory. -/
structure Files where
  texts : OrderedMap Location String
  directories : List Location
  workingDirectory : Location

namespace Files

/-- Whether a directory is at the location. -/
def hasDirectory (f : Files) (l : Location) : Bool :=
  (f.workingDirectory :: f.directories).any (l.isPrefixOf ·) ||
    f.texts.keys.any fun file => l.isPrefixOf file && l != file

/-- The greatest length of a name, in bytes. -/
def nameLimit : Nat := 255

/-- The location that a name leads to from a directory, whatever is there. -/
def child (l : Location) (name : String) : Except FileError Location :=
  if nameLimit < name.utf8ByteSize then .error .nameTooLong else .ok (l.step name)

/-- The directory that a name leads to from another. -/
def enter (f : Files) (l : Location) (name : String) : Except FileError Location := do
  let next ← child l name
  if f.hasDirectory next then return next
  else if (f.texts.get? next).isSome || (Device.at? next).isSome then throw .notDirectory
  else throw .missing

/-- The directory that names lead to from another, one after another. -/
def walk (f : Files) (l : Location) : List String → Except FileError Location
  | [] => .ok l
  | name :: rest =>
    match f.enter l name with
    | .error e => .error e
    | .ok l => f.walk l rest

/-- The greatest length of a path, in bytes. -/
def pathLimit : Nat := 4095

/-- The directory where a path begins, and its names. An empty path leads nowhere. -/
def split (f : Files) (path : String) : Except FileError (Location × List String) :=
  if path.toList.contains '\x00' then .error .nullInPath
  else if path.isEmpty then .error .missing
  else if pathLimit < path.utf8ByteSize then .error .nameTooLong
  else .ok (Location.origin f.workingDirectory path, path.splitOn "/")

/-- The location that a path leads to, whatever is there. -/
def source (f : Files) (path : String) : Except FileError Location := do
  let (start, names) ← f.split path
  child (← f.walk start names.dropLast) (names.getLastD "")

/-- Whether a file, a directory or a device is at the location. -/
def has (f : Files) (l : Location) : Bool :=
  f.hasDirectory l || (f.texts.get? l).isSome || (Device.at? l).isSome

/-- The text of the file at a location. -/
def readAt (f : Files) (l : Location) : Except FileError String :=
  if f.hasDirectory l then .error .isDirectory
  else
    match f.texts.get? l with
    | some text => .ok text
    | none => .error .missing

/-- The text of the file at a path. -/
def read (f : Files) (path : String) : Except FileError String := do f.readAt (← f.source path)

/-- The names of a path without the empty ones at its end. -/
def withoutSlashes (names : List String) : List String :=
  (names.reverse.dropWhile (· == "")).reverse

/-- The location that a path leads to for writing. -/
def target (f : Files) (path : String) : Except FileError Location := do
  let (start, names) ← f.split path
  let directory ← f.walk start (withoutSlashes names).dropLast
  if names.getLast? = some "" then throw .isDirectory
  child directory (names.getLastD "")

/-- The directories in which no file can be made. -/
def closedDirectories : List Location := [["proc"], ["dev", "fd"]]

/-- The files after a text has been written at a location. -/
def writeAt (f : Files) (l : Location) (text : String) : Except FileError Files :=
  if f.hasDirectory l then .error .isDirectory
  else if closedDirectories.contains l.dropLast && !f.has l then .error .missing
  else .ok { f with texts := f.texts.insert l text }

/-- The files after a text has been written to a path. -/
def write (f : Files) (path text : String) : Except FileError Files := do
  f.writeAt (← f.target path) text

/-- The directories that a system has beside those of its users. -/
def systemDirectories : List Location :=
  ["bin", "boot", "dev", "etc", "home", "lib", "media", "mnt", "opt", "proc", "root", "run", "sbin",
    "srv", "sys", "tmp", "usr", "var"].map ([·]) ++
  [["dev", "fd"], ["dev", "pts"], ["dev", "shm"]]

/-- Files given by their paths from the working directory. -/
def ofList (workingDirectory : Location) (files : List (String × String)) : Files where
  texts := .ofList (files.map fun file =>
    ((file.1.splitOn "/").foldl Location.step workingDirectory, file.2))
  directories := systemDirectories
  workingDirectory := workingDirectory

end Files
end DocumentSql
