/-
# Why a file cannot be used

The system that keeps the files has a number and words of its own for each
reason why a file cannot be read or written, and so has a path that cannot be
the path of a file.

Key definitions: `FileError`, `FileError.message`, `FileError.record`.
-/
import DocumentSql.Decimal.Digits

namespace DocumentSql

/-- Why a file cannot be read or written. -/
inductive FileError where
  | missing
  | notDirectory
  | isDirectory
  | nameTooLong
  | noSpace
  | noDevice
  /-- The path has a null character in it. -/
  | nullInPath
  /-- Another reason, in the words of the system. -/
  | other (reason : String)
deriving DecidableEq

namespace FileError

/-- The words for the reason. -/
def reason : FileError → String
  | .missing => "No such file or directory"
  | .notDirectory => "Not a directory"
  | .isDirectory => "Is a directory"
  | .nameTooLong => "File name too long"
  | .noSpace => "No space left on device"
  | .noDevice => "No such device or address"
  | .nullInPath => "file name contained an unexpected NUL byte"
  | .other reason => reason

/-- The number that the system gives to the reason. -/
def number? : FileError → Option Nat
  | .missing => some 2
  | .notDirectory => some 20
  | .isDirectory => some 21
  | .nameTooLong => some 36
  | .noSpace => some 28
  | .noDevice => some 6
  | .nullInPath => none
  | .other _ => none

/-- The kind of the reason. -/
def kind : FileError → String
  | .missing => "NotFound"
  | .notDirectory => "NotADirectory"
  | .isDirectory => "IsADirectory"
  | .nameTooLong => "InvalidFilename"
  | .noSpace => "StorageFull"
  | .noDevice => "Uncategorized"
  | .nullInPath => "InvalidInput"
  | .other _ => "Other"

/-- The message for the asker. -/
def message (e : FileError) : String :=
  match e.number? with
  | some n => e.reason ++ " (os error " ++ Decimal.natText n ++ ")"
  | none => e.reason

/-- The error with its number, kind and words by name. -/
def record (e : FileError) : String :=
  let said := "kind: " ++ e.kind ++ ", message: \"" ++ e.reason ++ "\" \x7d"
  match e.number? with
  | some n => "Os \x7b code: " ++ Decimal.natText n ++ ", " ++ said
  | none => "Error \x7b " ++ said

end FileError
end DocumentSql
