/-
# Files of variables

A file of variables has lines of the form `NAME=value`; blank lines and lines
that begin with `#` are skipped, and a line may begin with the word `export`. In
a value, single quotes keep everything, double quotes keep blanks, and outside
single quotes a backslash keeps the next character and `$NAME` or the name in
braces stands for the value of a variable. A comment may follow behind a blank.
Blanks at the end of a line do not belong to it. Reading stops at the first line
that cannot be read.

Key definitions: `Variables`, `Variables.assignment?`, `Variables.withFile?`.
-/
import DocumentSql.OrderedMap
import DocumentSql.Text.Alphanumeric
import DocumentSql.Text.Blank
import DocumentSql.Text.Lines

namespace DocumentSql

/-- Variables with their values. -/
abbrev Variables := OrderedMap String String

namespace Variables

/-- How a `$` is being read. -/
inductive Substitution where
  | none
  /-- A bare name, the characters so far in reverse. -/
  | bare (name : List Char)
  /-- A name in braces, the characters so far in reverse. -/
  | braced (name : List Char)

/-- Where the reading of a value stands. -/
structure Scan where
  /-- The characters of the value so far, in reverse. -/
  output : List Char
  inSingle : Bool
  inDouble : Bool
  escaped : Bool
  substitution : Substitution
  /-- Whether only blanks and a comment may follow. -/
  ending : Bool

namespace Scan

/-- The reading of a value before its first character. -/
def start : Scan := ⟨[], false, false, false, .none, false⟩

/-- Puts a character to the value. -/
def push (s : Scan) (c : Char) : Scan := { s with output := c :: s.output }

/-- Puts the value of a variable, whose name is given in reverse, to the value. -/
def expand (lookup : String → String) (s : Scan) (name : List Char) : Scan :=
  { s with output := (lookup (String.ofList name.reverse)).toList.reverse ++ s.output }

/-- A character behind a backslash. -/
def stepEscaped? (s : Scan) (c : Char) : Option Scan :=
  let s := { s with escaped := false }
  if c = '\\' || c = '\'' || c = '"' || c = '$' || c = ' ' then some (s.push c)
  else if c = 'n' then some (s.push '\n')
  else none

/-- A character of a bare name, or the first one behind it. -/
def stepBare (lookup : String → String) (s : Scan) (name : List Char) (c : Char) : Scan :=
  if Text.isAlphanumeric c then { s with substitution := .bare (c :: name) }
  else if c = '\x7b' && name.isEmpty then { s with substitution := .braced [] }
  else
    let s := s.expand lookup name
    if c = '$' then { s with substitution := .bare [] }
    else { s with substitution := .none, output := c :: s.output }

/-- A character of a name in braces, or the closing brace. -/
def stepBraced (lookup : String → String) (s : Scan) (name : List Char) (c : Char) : Scan :=
  if c = '\x7d' then { s.expand lookup name with substitution := .none }
  else { s with substitution := .braced (c :: name) }

/-- A character outside names and single quotes. -/
def stepPlain (s : Scan) (c : Char) : Scan :=
  if c = '$' then { s with substitution := .bare [] }
  else if s.inDouble then
    if c = '"' then { s with inDouble := false }
    else if c = '\\' then { s with escaped := true }
    else s.push c
  else if c = '\'' then { s with inSingle := true }
  else if c = '"' then { s with inDouble := true }
  else if c = '\\' then { s with escaped := true }
  else if c = ' ' || c = '\t' then { s with ending := true }
  else s.push c

/-- One character of a value that has not come to its end. -/
def step? (lookup : String → String) (s : Scan) (c : Char) : Option Scan :=
  if s.escaped then s.stepEscaped? c
  else if s.inSingle then some (if c = '\'' then { s with inSingle := false } else s.push c)
  else
    match s.substitution with
    | .bare name => some (s.stepBare lookup name c)
    | .braced name => some (s.stepBraced lookup name c)
    | .none => some (s.stepPlain c)

/-- The value, if it is complete. A backslash at the end is dropped. -/
def finish? (lookup : String → String) (s : Scan) : Option String :=
  match s.substitution with
  | .braced _ => none
  | .bare name => if s.inSingle || s.inDouble then none else result (s.expand lookup name)
  | .none => if s.inSingle || s.inDouble then none else result s
where
  result (s : Scan) : Option String := some (String.ofList s.output.reverse)

/-- Reads the rest of a value. -/
def run? (lookup : String → String) (s : Scan) : List Char → Option String
  | [] => s.finish? lookup
  | c :: cs =>
    if s.ending then
      if c = ' ' || c = '\t' then s.run? lookup cs
      else if c = '#' then s.finish? lookup
      else none
    else
      match s.step? lookup c with
      | some s => s.run? lookup cs
      | none => none

end Scan

/-- Whether a name may begin with `c`. -/
def startsName (c : Char) : Bool := c.isAlpha || c = '_'

/-- Whether a name may go on with `c`. -/
def continuesName (c : Char) : Bool := c.isAlphanum || c = '_' || c = '.'

/-- A name and what follows it and the blanks behind it. -/
def name? (cs : List Char) : Option (List Char × List Char) :=
  match cs with
  | [] => none
  | c :: _ =>
    if startsName c then
      some (cs.takeWhile continuesName, (cs.dropWhile continuesName).dropWhile Text.isBlank)
    else none

/-- The characters behind an equals sign. -/
def afterEquals? : List Char → Option (List Char)
  | '=' :: cs => some cs
  | _ => none

/-- The name that a line sets and the characters behind its equals sign. The word `export` may be a
name or stand before one. -/
def target? (cs : List Char) : Option (List Char × List Char) := do
  let (name, rest) ← name? cs
  match afterEquals? rest with
  | some value => return (name, value)
  | none =>
    if name = ['e', 'x', 'p', 'o', 'r', 't'] then
      let (name, rest) ← name? rest
      return (name, ← afterEquals? rest)
    else none

/-- The variable that a line sets, if it sets one. `none` outside stands for a line that cannot be
read. -/
def assignment? (lookup : String → String) (line : List Char) : Option (Option (String × String)) :=
  let cs := Text.trimChars line
  if cs.isEmpty || cs.head? == some '#' then some none
  else
    match target? cs with
    | none => none
    | some (name, value) =>
      let value := value.dropWhile Text.isBlank
      if value.isEmpty || value.head? == some '#' then some (some (String.ofList name, ""))
      else (Scan.start.run? lookup value).map fun v => some (String.ofList name, v)

/-- What stands behind `name=` in the first of the variables, written `NAME=value`, that begins
so. The name may have an equals sign itself and so reach into the value. -/
def behindName? (vars : Variables) (name : String) : Option String :=
  vars.entries.findSome? fun e =>
    ((name ++ "=").toList.isPrefixOf? (e.1 ++ "=" ++ e.2).toList).map String.ofList

/-- What `$` and a name stand for: a value of the surroundings, or else one of an earlier line. -/
def valueOf (surrounding found : Variables) (name : String) : String :=
  ((surrounding.behindName? name).or (found.behindName? name)).getD ""

/-- Reads the lines of a file. The first line that sets a variable counts, and nothing is set that
the surroundings have. A value with a null character cannot be set. -/
def readLines? (surrounding found : Variables) : List (List Char) → Option Variables
  | [] => some found
  | line :: rest =>
    match assignment? (valueOf surrounding found) line with
    | none => some found
    | some none => readLines? surrounding found rest
    | some (some (name, v)) =>
      if (surrounding.get? name).isSome || (found.get? name).isSome then
        readLines? surrounding found rest
      else if v.toList.contains '\x00' then none
      else readLines? surrounding (found.insert name v) rest

/-- The variables of the surroundings together with those of a file that the surroundings lack, if
all of them can be set. -/
def withFile? (surrounding : Variables) (text : String) : Option Variables :=
  (readLines? surrounding .empty (Text.lines text.toList)).map (·.insertAll surrounding.entries)

end Variables
end DocumentSql
