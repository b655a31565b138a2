/-
# Devices

Places that hold no file and no directory: what is written to some of them is
gone, nothing can be written to the full one, there may be no terminal, and the
three streams of a program have places too.

Key definitions: `Device`, `Device.at?`.
-/

namespace DocumentSql

/-- What a place may hold besides files and directories. -/
inductive Device where
  /-- All that is written is gone. -/
  | sink
  | full
  /-- The terminal of a program that has none. -/
  | noTerminal
  | input
  | output
  | errors
deriving DecidableEq

namespace Device

/-- The device of that name. -/
def ofName? : String → Option Device
  | "null" => some .sink
  | "zero" => some .sink
  | "random" => some .sink
  | "urandom" => some .sink
  | "full" => some .full
  | "tty" => some .noTerminal
  | "stdin" => some .input
  | "stdout" => some .output
  | "stderr" => some .errors
  | _ => none

/-- The stream of that number. -/
def ofNumber? : String → Option Device
  | "0" => some .input
  | "1" => some .output
  | "2" => some .errors
  | _ => none

/-- The device at a place, given by the names on the way from the root. -/
def at? : List String → Option Device
  | ["dev", name] => ofName? name
  | ["dev", "fd", number] => ofNumber? number
  | _ => none

end Device
end DocumentSql
