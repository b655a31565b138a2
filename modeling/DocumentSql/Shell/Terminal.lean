/-
# Terminals

What a program does to the world around it goes through a `Terminal`: files are
read and written by path, paths begin in a working directory, text goes to the
output or to the error output, and a clock tells milliseconds. A `Machine` is a
world of its own: files and devices, the input that has not been read, the text
of both outputs so far, and a clock that stands still.

Key definitions: `Terminal`, `Machine`, `Machine.terminal`.
-/
import DocumentSql.Shell.Device
import DocumentSql.Shell.Files

namespace DocumentSql

/-- The ways in which a program acts on what is around it. -/
structure Terminal (m : Type → Type) where
  read : String → m (Except FileError String)
  /-- Finds out whether there is anything at a path. -/
  look : String → m (Except FileError Unit)
  write : String → String → m (Except FileError Unit)
  print : String → m Unit
  /-- Writes to the error output. -/
  complain : String → m Unit
  milliseconds : m Nat
  workingDirectory : m Location

/-- Files, the rest of the input, and the texts of the two outputs. -/
structure Machine where
  files : Files
  input : String
  output : String
  errors : String

namespace Machine

/-- A machine that has files and an input and has not put out anything. -/
def ofFiles (files : Files) (input : String) : Machine := ⟨files, input, "", ""⟩

/-- The rest of the input, which is read to its end. -/
def takeInput (w : Machine) : String × Machine := (w.input, { w with input := "" })

/-- The machine after putting out a text. -/
def print (text : String) (w : Machine) : Machine := { w with output := w.output ++ text }

/-- The machine after putting out a text about an error. -/
def complain (text : String) (w : Machine) : Machine := { w with errors := w.errors ++ text }

/-- The text at a location; devices other than the input hold none. -/
def readAt (l : Location) (w : Machine) : Except FileError String × Machine :=
  match Device.at? l with
  | none => (w.files.readAt l, w)
  | some .input => (.ok w.takeInput.1, w.takeInput.2)
  | some .noTerminal => (.error .noDevice, w)
  | some _ => (.ok "", w)

/-- The text at a path. -/
def read (path : String) (w : Machine) : Except FileError String × Machine :=
  match w.files.source path with
  | .error e => (.error e, w)
  | .ok l => w.readAt l

/-- Whether there is anything at a path. -/
def look (path : String) (w : Machine) : Except FileError Unit := do
  if w.files.has (← w.files.source path) then return () else throw .missing

/-- The machine after writing a text at a location. -/
def writeAt (l : Location) (text : String) (w : Machine) : Except FileError Unit × Machine :=
  match Device.at? l with
  | none =>
    match w.files.writeAt l text with
    | .error e => (.error e, w)
    | .ok files => (.ok (), { w with files })
  | some .full => (if text.isEmpty then .ok () else .error .noSpace, w)
  | some .noTerminal => (.error .noDevice, w)
  | some .output => (.ok (), w.print text)
  | some .errors => (.ok (), w.complain text)
  | some _ => (.ok (), w)

/-- The machine after writing a text to a path. -/
def write (path text : String) (w : Machine) : Except FileError Unit × Machine :=
  match w.files.target path with
  | .error e => (.error e, w)
  | .ok l => w.writeAt l text

/-- The terminal of a machine. -/
def terminal : Terminal (StateM Machine) where
  read path := read path
  look path := fun w => (w.look path, w)
  write path text := write path text
  print text := fun w => ((), w.print text)
  complain text := fun w => ((), w.complain text)
  milliseconds := fun w => (0, w)
  workingDirectory := fun w => (w.files.workingDirectory, w)

end Machine
end DocumentSql
