/-
# Tokens of a statement

A statement is first normalized: a backslash followed by `n`, `t` or `r`
counts as a blank, runs of blanks become one space, and no blank stays at the
ends. It is then cut into single characters of `( ) , ;`, literals in single
or double quotes, and words. A literal ends at the first quote of its own kind,
and keeps its quotes so that `'name'` differs from `name`; one that is never
closed runs to the end of the statement.

Key definitions: `Sql.normalize`, `Sql.Token`, `Sql.scan`, `Sql.tokenize`.
-/
import DocumentSql.Text.Blank
import DocumentSql.Text.Case

namespace DocumentSql
namespace Sql

/-- The characters with each escaped line feed, tab and return replaced by a space. -/
def unescapeBlanks : List Char → List Char
  | '\\' :: 'n' :: rest => ' ' :: unescapeBlanks rest
  | '\\' :: 't' :: rest => ' ' :: unescapeBlanks rest
  | '\\' :: 'r' :: rest => ' ' :: unescapeBlanks rest
  | c :: rest => c :: unescapeBlanks rest
  | [] => []

/-- The characters with each run of blanks replaced by a space, and none at the ends. -/
def squeezeBlanks (cs : List Char) : List Char := [' '].intercalate (Text.words cs)

/-- The characters of a statement in normal form. -/
def normalChars (cs : List Char) : List Char := squeezeBlanks (unescapeBlanks cs)

/-- A statement in normal form. -/
def normalize (sql : String) : String := String.ofList (normalChars sql.toList)

/-- Whether `c` is a token by itself. -/
def isPunctuation (c : Char) : Bool := c = '(' || c = ')' || c = ',' || c = ';'

/-- Whether `c` opens a literal, and closes the one it opened. -/
def isQuote (c : Char) : Bool := c = '\'' || c = '"'

/-- Whether `c` goes on with a word. -/
def isWordChar (c : Char) : Bool := !Text.isBlank c && !isPunctuation c && !isQuote c

/-- The literal that follows the opening quote `quote`, with its closing quote if it has one. -/
def literalBody (quote : Char) (cs : List Char) : List Char :=
  cs.takeWhile (· != quote) ++ (cs.dropWhile (· != quote)).take 1

/-- What follows that literal. -/
def afterLiteral (quote : Char) (cs : List Char) : List Char :=
  (cs.dropWhile (· != quote)).drop 1

/-- The tokens of normalized characters. -/
def scan (cs : List Char) : List (List Char) :=
  match cs with
  | [] => []
  | c :: rest =>
    if Text.isBlank c then scan rest
    else if isPunctuation c then [c] :: scan rest
    else if isQuote c then (c :: literalBody c rest) :: scan (afterLiteral c rest)
    else (c :: rest.takeWhile isWordChar) :: scan (rest.dropWhile isWordChar)
termination_by cs.length
decreasing_by
  · simp
  · simp
  · simp only [afterLiteral, List.length_drop, List.length_cons]
    have := (List.dropWhile_sublist (l := rest) (· != c)).length_le
    omega
  · exact Nat.lt_succ_of_le (List.dropWhile_sublist _).length_le

/-- A token, as written. -/
structure Token where
  text : String
deriving DecidableEq

/-- The tokens of a statement. -/
def tokenize (sql : String) : List Token :=
  (scan (normalChars sql.toList)).map fun cs => ⟨String.ofList cs⟩

namespace Token

/-- Whether the token is the given keyword in any case. -/
def isWord (t : Token) (keyword : String) : Bool := Text.sameWord t.text keyword

/-- Whether the token is one of the given keywords. -/
def isAnyWord (t : Token) (keywords : List String) : Bool := keywords.any t.isWord

/-- Whether the token is the single character `c`. -/
def isChar (t : Token) (c : Char) : Bool := t.text.toList == [c]

/-- What stands between two equal quotes at the ends of the characters. -/
def betweenQuotes? (cs : List Char) : Option (List Char) :=
  match cs with
  | [] => none
  | open_ :: rest =>
    if isQuote open_ && rest.getLast? == some open_ then some rest.dropLast else none

/-- What a literal holds between its quotes; other tokens hold nothing. -/
def unquoted? (t : Token) : Option String := (betweenQuotes? t.text.toList).map String.ofList

/-- Whether the token is a literal with both its quotes. -/
def isQuoted (t : Token) : Bool := t.unquoted?.isSome

end Token
end Sql
end DocumentSql
