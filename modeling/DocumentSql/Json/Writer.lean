/-
# Writing JSON

In the compact form no blank stands between tokens. In the spread form each
item and member has a line of its own, indented by two spaces for each
container around it, and a space follows each colon; empty containers stay on
one line. Quotes, backslashes and the characters below space are escaped, and
nothing else.

Key definitions: `Json.quoted`, `Json.compact`, `Json.spread`.
-/
import DocumentSql.Json.Basic

namespace DocumentSql
namespace Json

/-- The hexadecimal digit for a number below sixteen. -/
def hexChar (n : Nat) : Char := Char.ofNat (if n < 10 then 48 + n else 87 + n)

/-- The characters that stand for `c` inside quotes. -/
def escape (c : Char) : List Char :=
  if c = '"' then ['\\', '"']
  else if c = '\\' then ['\\', '\\']
  else if c.toNat = 0x8 then ['\\', 'b']
  else if c.toNat = 0x9 then ['\\', 't']
  else if c.toNat = 0xA then ['\\', 'n']
  else if c.toNat = 0xC then ['\\', 'f']
  else if c.toNat = 0xD then ['\\', 'r']
  else if c.toNat < 0x20 then
    ['\\', 'u', '0', '0', hexChar (c.toNat / 16), hexChar (c.toNat % 16)]
  else [c]

/-- A text in quotes. -/
def quoted (s : String) : List Char := '"' :: s.toList.flatMap escape ++ ['"']

/-- The characters of a value that is no container. -/
def leafChars : Json → List Char
  | .bool b => if b then ['t', 'r', 'u', 'e'] else ['f', 'a', 'l', 's', 'e']
  | .int i => Decimal.intChars i
  | .float x => x.jsonChars
  | .str s => quoted s
  | _ => ['n', 'u', 'l', 'l']

mutual

/-- The characters of a value without blanks. -/
def compactChars : Json → List Char
  | .arr items => '[' :: compactItems items ++ [']']
  | .obj members => '\x7b' :: compactMembers members ++ ['\x7d']
  | v => leafChars v

/-- The items with commas between them. -/
def compactItems : List Json → List Char
  | [] => []
  | [v] => compactChars v
  | v :: rest => compactChars v ++ ',' :: compactItems rest

/-- The members with commas between them. -/
def compactMembers : List (String × Json) → List Char
  | [] => []
  | [(name, v)] => quoted name ++ ':' :: compactChars v
  | (name, v) :: rest => quoted name ++ ':' :: compactChars v ++ ',' :: compactMembers rest

end

/-- A line end and the indentation inside `level` containers. -/
def newline (level : Nat) : List Char := '\n' :: List.replicate (2 * level) ' '

mutual

/-- The characters of a value inside `level` containers, with its items on lines of their own. -/
def spreadChars (level : Nat) : Json → List Char
  | .arr [] => ['[', ']']
  | .arr (v :: rest) => '[' :: spreadItems (level + 1) (v :: rest) ++ newline level ++ [']']
  | .obj [] => ['\x7b', '\x7d']
  | .obj (m :: rest) =>
    '\x7b' :: spreadMembers (level + 1) (m :: rest) ++ newline level ++ ['\x7d']
  | v => leafChars v

/-- The items, each on its own line. -/
def spreadItems (level : Nat) : List Json → List Char
  | [] => []
  | [v] => newline level ++ spreadChars level v
  | v :: rest => newline level ++ spreadChars level v ++ ',' :: spreadItems level rest

/-- The members, each on its own line. -/
def spreadMembers (level : Nat) : List (String × Json) → List Char
  | [] => []
  | [(name, v)] => newline level ++ quoted name ++ ':' :: ' ' :: spreadChars level v
  | (name, v) :: rest =>
    newline level ++ quoted name ++ ':' :: ' ' :: spreadChars level v ++ ',' ::
      spreadMembers level rest

end

/-- The compact text of a value. -/
def compact (v : Json) : String := String.ofList (compactChars v)

/-- The text of a value with items and members on lines of their own. -/
def spread (v : Json) : String := String.ofList (spreadChars 0 v)

end Json
end DocumentSql
