/-
# Values in a statement

A quoted literal is a text. A bare word of digits is an integer, or a double
if 64 bits do not hold it; digits with a point between them are a double;
`true`, `false` and `null` in any case are themselves; any other word is a
text. A sign makes a word a text.

Key definition: `Sql.Token.scalar`.
-/
import DocumentSql.Scalar
import DocumentSql.Sql.Token

namespace DocumentSql
namespace Sql
namespace Token

/-- The number that digits, a point and digits write. -/
def decimal? (cs : List Char) : Option Binary64 :=
  match cs.dropWhile Decimal.isDigit with
  | '.' :: fraction =>
    match Decimal.natural? (cs.takeWhile Decimal.isDigit), Decimal.natural? fraction with
    | some _, some _ => Binary64.ofText? cs
    | _, _ => none
  | _ => none

/-- The value of a word that is no literal. -/
def wordScalar (word : String) : Scalar :=
  match Decimal.natural? word.toList with
  | some n => .ofWhole n
  | none =>
    match decimal? word.toList with
    | some x => .float x
    | none =>
      if Text.sameWord word "TRUE" then .bool true
      else if Text.sameWord word "FALSE" then .bool false
      else if Text.sameWord word "NULL" then .null
      else .text word

/-- The value that a token stands for. -/
def scalar (t : Token) : Scalar :=
  match t.unquoted? with
  | some inner => .text inner
  | none => wordScalar t.text

end Token
end Sql
end DocumentSql
