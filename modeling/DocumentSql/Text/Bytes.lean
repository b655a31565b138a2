/-
# Texts as bytes

The bytes of a text are those of its UTF-8 form. In a percent-encoded text a
byte is written as `%` with two hexadecimal digits; a `%` without two such
digits behind it stands for itself.

Key definitions: `Text.bytes`, `Text.ofBytes?`, `Text.ofAnyBytes`,
`Text.percentDecode`.
-/

namespace DocumentSql
namespace Text

/-- The value of a hexadecimal digit of either case. -/
def hexValue? (c : Char) : Option Nat :=
  if '0' ≤ c && c ≤ '9' then some (c.toNat - 48)
  else if 'a' ≤ c && c ≤ 'f' then some (c.toNat - 87)
  else if 'A' ≤ c && c ≤ 'F' then some (c.toNat - 55)
  else none

/-- The bytes of a text. -/
def bytes (s : String) : List UInt8 := s.toList.flatMap String.utf8EncodeChar

/-- The text with these bytes, if they are the bytes of a text. -/
def ofBytes? (bs : List UInt8) : Option String := String.fromUTF8? bs.toByteArray

/-- The character that is read for a byte on its own: none but ASCII characters can be read. -/
def charOfByte (b : UInt8) : Char := if b < 0x80 then Char.ofNat b.toNat else Char.ofNat 0xFFFD

/-- A text for any bytes: the text that has them, or else a character for each of them. -/
def ofAnyBytes (bs : List UInt8) : String :=
  (ofBytes? bs).getD (String.ofList (bs.map charOfByte))

/-- The value of the byte of a hexadecimal digit. -/
def hexByte? (b : UInt8) : Option Nat := hexValue? (Char.ofNat b.toNat)

/-- Puts in place of each percent sign and its two digits the byte that they write. -/
def percentDecode : List UInt8 → List UInt8
  | 0x25 :: a :: b :: rest =>
    match hexByte? a, hexByte? b with
    | some high, some low => UInt8.ofNat (high * 16 + low) :: percentDecode rest
    | _, _ => 0x25 :: percentDecode (a :: b :: rest)
  | b :: rest => b :: percentDecode rest
  | [] => []

end Text
end DocumentSql
