/-
# Paths to cells

A column of a stored row is looked up by a path: the label in double quotes, in
which a quote is written `\"`. The path is read as bytes. A null character ends
it, and the label ends at the first quote, escaped or not, so that the rest of a
column with a quote in it stands behind the label. A label without its closing
quote is no path.

In a label a backslash begins an escape. What is none counts as the code
`0x99999`, together with all that follows it if its digits are missing or it
begins like an escaped end of a line. A label means the first cell whose name
has the same codes, a null character being the end of both. Behind the label
there may only be a further step, which leads nowhere, since cells hold no
arrays and no objects.

Key definitions: `CellPath`, `CellPath.ofColumn?`, `CellPath.codes`,
`CellPath.lookup`.
-/
import DocumentSql.Error
import DocumentSql.Scalar
import DocumentSql.Text.Bytes

namespace DocumentSql

/-- A label, and what stands behind its closing quote. -/
structure CellPath where
  label : List UInt8
  rest : List UInt8
deriving DecidableEq

namespace CellPath

/-- The byte of the double quote. -/
def quote : UInt8 := 0x22

/-- The byte of the backslash. -/
def backslash : UInt8 := 0x5C

/-- The bytes of a column in which each quote is escaped. -/
def escapeQuotes (bs : List UInt8) : List UInt8 :=
  bs.flatMap fun b => if b = quote then [backslash, quote] else [b]

/-- The label at the start of a text of bytes, whose opening quote has been read. -/
def ofQuoted? (bs : List UInt8) : Option CellPath :=
  match bs.dropWhile (· != quote) with
  | [] => none
  | _ :: rest => some ⟨bs.takeWhile (· != quote), rest⟩

/-- The path to a column. -/
def ofColumn? (column : String) : Option CellPath :=
  ofQuoted? ((escapeQuotes (Text.bytes column) ++ [quote]).takeWhile (· != 0))

/-- The code that stands for what is no escape. -/
def noEscape : Nat := 0x99999

/-- The value that a byte has as a hexadecimal digit; bytes that are none have one too. -/
def hexDigit (b : UInt8) : Nat := (b.toNat + 9 * (b.toNat / 64 % 2)) % 16

/-- The number that four bytes write. -/
def hex4 (a b c d : UInt8) : Nat :=
  ((hexDigit a * 16 + hexDigit b) * 16 + hexDigit c) * 16 + hexDigit d

/-- Whether a byte goes on with a character. -/
def isContinuation (b : UInt8) : Bool := b.toNat / 64 == 2

/-- The code of a character with the first byte `lead`, which carries `bits` of it, and what
follows the character. -/
def readCharacter (bits : Nat) (rest : List UInt8) : Nat × List UInt8 :=
  ((rest.takeWhile isContinuation).foldl (fun code b => code * 64 + b.toNat % 64) bits,
    rest.dropWhile isContinuation)

/-- The code of the character that begins with the byte `b`, and what follows it. A byte that only
goes on with a character is a code of its own. -/
def readPlain (b : UInt8) (rest : List UInt8) : Nat × List UInt8 :=
  if b < 0xC0 then (b.toNat, rest)
  else if b < 0xE0 then readCharacter (b.toNat % 32) rest
  else if b < 0xF0 then readCharacter (b.toNat % 16) rest
  else readCharacter (b.toNat % 8) rest

/-- The code of an escape of the form `u` with four digits, of which two in a row may write the
halves of a pair. -/
def readUnicode : List UInt8 → Nat × List UInt8
  | a :: b :: c :: d :: rest =>
    let high := hex4 a b c d
    match rest with
    | 0x5C :: 0x75 :: a :: b :: c :: d :: after =>
      let low := hex4 a b c d
      if high / 0x400 == 0x36 && low / 0x400 == 0x37 then
        (high % 0x400 * 0x400 + low % 0x400 + 0x10000, after)
      else (high, rest)
    | _ => (high, rest)
  | _ => (noEscape, [])

/-- What follows the escaped ends of lines at the start. -/
def dropLineEnds : List UInt8 → List UInt8
  | 0x5C :: 0x0D :: 0x0A :: rest => dropLineEnds rest
  | 0x5C :: 0x0D :: rest => dropLineEnds rest
  | 0x5C :: 0x0A :: rest => dropLineEnds rest
  | 0x5C :: 0xE2 :: 0x80 :: 0xA8 :: rest => dropLineEnds rest
  | 0x5C :: 0xE2 :: 0x80 :: 0xA9 :: rest => dropLineEnds rest
  | bs => bs

/-- The codes that a backslash and a byte stand for. -/
def escapes : List (UInt8 × Nat) :=
  [(0x22, 0x22), (0x27, 0x27), (0x2F, 0x2F), (0x30, 0), (0x5C, 0x5C), (0x62, 0x8), (0x66, 0xC),
    (0x6E, 0xA), (0x72, 0xD), (0x74, 0x9), (0x76, 0xB)]

/-- The code of an escape of the form `x` with two digits. -/
def readTwoDigits : List UInt8 → Nat × List UInt8
  | a :: b :: rest => (hexDigit a * 16 + hexDigit b, rest)
  | _ => (noEscape, [])

/-- The code of an escape, given by the bytes behind the backslash, and what follows it. -/
def readEscape : List UInt8 → Nat × List UInt8
  | [] => (noEscape, [])
  | b :: rest =>
    if b = 0x75 then readUnicode rest
    else if b = 0x78 then readTwoDigits rest
    else if b = 0xE2 then (noEscape, [])
    else ((escapes.lookup b).getD noEscape, rest)

/-- The first code of a label that begins with the byte `b`, and what follows it. Escaped ends of
lines belong to the code behind them. -/
def readCode (b : UInt8) (rest : List UInt8) : Nat × List UInt8 :=
  if b = backslash then
    match dropLineEnds (b :: rest) with
    | [] => (0, [])
    | c :: after => if c = backslash then readEscape after else readPlain c after
  else readPlain b rest

theorem length_readPlain_le (b : UInt8) (rest : List UInt8) :
    (readPlain b rest).2.length ≤ rest.length := by
  unfold readPlain
  repeat' split
  · exact Nat.le_refl _
  all_goals exact (List.dropWhile_sublist _).length_le

theorem length_readUnicode_le (bs : List UInt8) : (readUnicode bs).2.length ≤ bs.length := by
  unfold readUnicode
  split
  · dsimp only
    split
    · split <;> simp only [List.length_cons] <;> omega
    · simp only [List.length_cons]
      omega
  · simp

theorem length_readTwoDigits_le (bs : List UInt8) : (readTwoDigits bs).2.length ≤ bs.length := by
  unfold readTwoDigits
  split
  · simp only [List.length_cons]
    omega
  · simp

theorem length_readEscape_le (bs : List UInt8) : (readEscape bs).2.length ≤ bs.length := by
  unfold readEscape
  split
  · exact Nat.le_refl _
  · rename_i b rest
    rw [List.length_cons]
    split
    · exact Nat.le_succ_of_le (length_readUnicode_le rest)
    · split
      · exact Nat.le_succ_of_le (length_readTwoDigits_le rest)
      · split
        · simp
        · exact Nat.le_succ _

theorem length_dropLineEnds_le (bs : List UInt8) : (dropLineEnds bs).length ≤ bs.length := by
  fun_induction dropLineEnds bs with
  | case6 => exact Nat.le_refl _
  | _ =>
    simp only [List.length_cons]
    omega

theorem length_readCode_le (b : UInt8) (rest : List UInt8) :
    (readCode b rest).2.length ≤ rest.length := by
  unfold readCode
  split
  · have hd := length_dropLineEnds_le (b :: rest)
    split
    · simp
    · rename_i c after h
      rw [h] at hd
      simp only [List.length_cons] at hd
      split
      · exact Nat.le_trans (length_readEscape_le after) (by omega)
      · exact Nat.le_trans (length_readPlain_le c after) (by omega)
  · exact length_readPlain_le b rest

/-- The codes of a label, up to the code zero. -/
def codes : List UInt8 → List Nat
  | [] => []
  | b :: rest =>
    if (readCode b rest).1 = 0 then [] else (readCode b rest).1 :: codes (readCode b rest).2
termination_by bs => bs.length
decreasing_by exact Nat.lt_succ_of_le (length_readCode_le b rest)

/-- The codes of the name of a cell, up to the code zero. -/
def nameCodes (name : String) : List Nat := (name.toList.map Char.toNat).takeWhile (· != 0)

/-- Whether bytes behind a label can be a further step: an index, or a point with a label or a
bare name. -/
def isStep : List UInt8 → Bool
  | [] => false
  | b :: rest =>
    if b = 0x5B then true
    else if b = 0x2E then
      match rest with
      | [] => false
      | c :: rest =>
        if c = quote then (ofQuoted? rest).isSome else c != 0x2E && c != 0x5B
    else false

/-- The cell at the end of a path; an error if the path cannot be followed to its end. -/
def lookup (p : CellPath) (row : Row) : Except StoreError Scalar :=
  match row.entries.find? fun e => nameCodes e.1 == codes p.label with
  | none => .ok .null
  | some e =>
    if p.rest.isEmpty then .ok e.2
    else if isStep p.rest then .ok .null
    else .error .columnUnreadable

end CellPath
end DocumentSql
