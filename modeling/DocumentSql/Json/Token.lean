/-
# JSON tokens

A JSON text is cut into punctuation and leaves: strings, numbers and the words
`null`, `true` and `false`. Blanks between them are space, tab, line feed and
carriage return. A string is first read as code points in which an escaped
half of a surrogate pair stands for itself; `decodePairs` joins the halves, and
a string with half a pair left over has no text.

Key definitions: `Json.Token`, `Json.scanString`, `Json.word?`, `Json.tokens?`.
-/
import DocumentSql.Json.Number
import DocumentSql.Text.Bytes

namespace DocumentSql
namespace Json

/-- A piece of a JSON text. -/
inductive Token where
  | openArray
  | closeArray
  | openObject
  | closeObject
  | colon
  | comma
  /-- A string, with its text if it has one. -/
  | string (text : Option String)
  /-- A number, `null`, `true` or `false`. -/
  | leaf (v : Json)

/-- The number that four hexadecimal digits write. -/
def hex4? (a b c d : Char) : Option Nat :=
  match Text.hexValue? a, Text.hexValue? b, Text.hexValue? c, Text.hexValue? d with
  | some a, some b, some c, some d => some (((a * 16 + b) * 16 + c) * 16 + d)
  | _, _, _, _ => none

/-- The code point that a backslash and `c` stand for. -/
def escaped? (c : Char) : Option Nat :=
  if c = '"' then some 0x22
  else if c = '\\' then some 0x5C
  else if c = '/' then some 0x2F
  else if c = 'b' then some 0x8
  else if c = 'f' then some 0xC
  else if c = 'n' then some 0xA
  else if c = 'r' then some 0xD
  else if c = 't' then some 0x9
  else none

/-- The code points up to the closing quote and what follows the quote. Characters below space
have to be escaped. -/
def scanString : List Char → Option (List Nat × List Char)
  | [] => none
  | '"' :: rest => some ([], rest)
  | '\\' :: 'u' :: a :: b :: c :: d :: rest =>
    match hex4? a b c d, scanString rest with
    | some n, some (codes, after) => some (n :: codes, after)
    | _, _ => none
  | '\\' :: c :: rest =>
    match escaped? c, scanString rest with
    | some n, some (codes, after) => some (n :: codes, after)
    | _, _ => none
  | c :: rest =>
    if c = '\\' || c.toNat < 0x20 then none
    else
      match scanString rest with
      | some (codes, after) => some (c.toNat :: codes, after)
      | none => none

/-- Joins each high surrogate with the low one behind it; `none` if a half stands alone. -/
def decodePairs : List Nat → Option (List Char)
  | [] => some []
  | high :: codes =>
    if 0xD800 ≤ high && high < 0xDC00 then
      match codes with
      | low :: rest =>
        if 0xDC00 ≤ low && low < 0xE000 then
          (decodePairs rest).map
            (Char.ofNat (0x10000 + (high - 0xD800) * 0x400 + (low - 0xDC00)) :: ·)
        else none
      | [] => none
    else if 0xDC00 ≤ high && high < 0xE000 then none
    else (decodePairs codes).map (Char.ofNat high :: ·)

/-- The text of a string with these code points, if it has one. -/
def textOf? (codes : List Nat) : Option String := (decodePairs codes).map String.ofList

/-- The leaf that a bare word stands for. -/
def word? (cs : List Char) : Option Json :=
  if cs = ['n', 'u', 'l', 'l'] then some .null
  else if cs = ['t', 'r', 'u', 'e'] then some (.bool true)
  else if cs = ['f', 'a', 'l', 's', 'e'] then some (.bool false)
  else number? cs

/-- Whether `c` can stand between tokens. -/
def isSpace (c : Char) : Bool := c = ' ' || c = '\t' || c = '\n' || c = '\r'

/-- The token of a punctuation character. -/
def punctuation? (c : Char) : Option Token :=
  if c = '[' then some .openArray
  else if c = ']' then some .closeArray
  else if c = '\x7b' then some .openObject
  else if c = '\x7d' then some .closeObject
  else if c = ':' then some .colon
  else if c = ',' then some .comma
  else none

/-- Whether `c` goes on with a bare word or a number. -/
def isWordChar (c : Char) : Bool := !isSpace c && (punctuation? c).isNone && c != '"'

theorem length_of_scanString {cs after : List Char} {codes : List Nat}
    (h : scanString cs = some (codes, after)) : after.length < cs.length := by
  fun_induction scanString cs generalizing codes after with
  | case1 => simp at h
  | case2 rest =>
    simp only [Option.some.injEq, Prod.mk.injEq] at h
    simp [← h.2]
  | case3 | case5 | case8 =>
    rename_i ih
    simp only [Option.some.injEq, Prod.mk.injEq] at h
    have := ih ‹_›
    simp only [List.length_cons, ← h.2]
    omega
  | _ => simp at h

/-- The tokens of a text. -/
def tokens? (cs : List Char) : Option (List Token) :=
  match cs with
  | [] => some []
  | c :: rest =>
    if isSpace c then tokens? rest
    else
      match punctuation? c with
      | some token => (tokens? rest).map (token :: ·)
      | none =>
        if c = '"' then
          match _h : scanString rest with
          | some (codes, after) => (tokens? after).map (.string (textOf? codes) :: ·)
          | none => none
        else
          match word? (c :: rest.takeWhile isWordChar) with
          | some v => (tokens? (rest.dropWhile isWordChar)).map (.leaf v :: ·)
          | none => none
termination_by cs.length
decreasing_by
  · simp
  · simp
  · exact Nat.lt_succ_of_lt (length_of_scanString ‹_›)
  · exact Nat.lt_succ_of_le (List.dropWhile_sublist _).length_le

end Json
end DocumentSql
