/-
# LIKE patterns as regular expressions

The text of the regular expression that a pattern stands for, and what such a
text means. `(?s)` lets the dot stand for a line feed too, `^` and `$` hold a
match to both ends of the text, and the characters between two wildcards are
written with a backslash before each that would have a meaning of its own.

What the expression matches is defined on its text alone: the text is cut into
symbols, each star joins the symbol before it, and a match goes along the
factors from some place of the text on. Of the notation only what such texts
need is read, so that a character with a meaning of its own that is neither
escaped nor one of `. * ^ $` makes the text unreadable.

Key definitions: `Like.expressionChars`, `Like.Expression.ofChars?`,
`Like.Expression.IsFoundIn`.
-/
import Mathlib.Logic.Relation

namespace DocumentSql
namespace Like

/-! ### The text of an expression -/

/-- The characters that may have a meaning of their own in a regular expression. -/
def metaCharacters : List Char :=
  ['\\', '.', '+', '*', '?', '(', ')', '|', '[', ']', '\x7b', '\x7d', '^', '$', '#', '&', '-', '~']

/-- Whether `c` may have a meaning of its own. -/
def isMeta (c : Char) : Bool := metaCharacters.contains c

/-- A text that stands for `cs` and nothing else. -/
def escape (cs : List Char) : List Char :=
  cs.flatMap fun c => if isMeta c then ['\\', c] else [c]

/-- The text for the rest of a pattern, when `literal` holds the characters since the last
wildcard. -/
def expressionBehind (literal : List Char) : List Char → List Char
  | [] => escape literal
  | c :: pattern =>
    if c = '%' then escape literal ++ '.' :: '*' :: expressionBehind [] pattern
    else if c = '_' then escape literal ++ '.' :: expressionBehind [] pattern
    else expressionBehind (literal ++ [c]) pattern

/-- The text of the expression for a pattern. -/
def expressionChars (pattern : List Char) : List Char :=
  "(?s)^".toList ++ expressionBehind [] pattern ++ ['$']

/-! ### Expressions -/

namespace Expression

/-- What one place of a text is tested for. -/
inductive Atom
  | start
  | finish
  /-- Any character, a line feed only if `lineFeed` says so. -/
  | any (lineFeed : Bool)
  | literal (c : Char)
deriving DecidableEq, Repr

/-- An atom, or any number of it in a row. -/
inductive Factor
  | once (a : Atom)
  | star (a : Atom)
deriving DecidableEq, Repr

/-- A symbol of the notation. -/
inductive Symbol
  | atom (a : Atom)
  | star
deriving DecidableEq, Repr

/-- The symbol that `c` is when no backslash stands before it. -/
def symbol? (lineFeed : Bool) (c : Char) : Option Symbol :=
  if c = '*' then some .star
  else if c = '.' then some (.atom (.any lineFeed))
  else if c = '^' then some (.atom .start)
  else if c = '$' then some (.atom .finish)
  else if isMeta c then none
  else some (.atom (.literal c))

/-- The symbols of a text; `escaped` says whether a backslash stands before it. -/
def symbols? (lineFeed escaped : Bool) : List Char → Option (List Symbol)
  | [] => if escaped then none else some []
  | c :: cs =>
    if escaped then
      if isMeta c then (symbols? lineFeed false cs).map (.atom (.literal c) :: ·) else none
    else if c = '\\' then symbols? lineFeed true cs
    else (symbol? lineFeed c).bind fun s => (symbols? lineFeed false cs).map (s :: ·)

/-- The factors of symbols: a star belongs to the atom before it. -/
def factors? : List Symbol → Option (List Factor)
  | [] => some []
  | .star :: _ => none
  | .atom a :: .star :: rest => (factors? rest).map (.star a :: ·)
  | .atom a :: rest => (factors? rest).map (.once a :: ·)

/-- The factors of the expression that a text is. -/
def ofChars? : List Char → Option (List Factor)
  | '(' :: '?' :: 's' :: ')' :: cs => (symbols? true false cs).bind factors?
  | cs => (symbols? false false cs).bind factors?

/-! ### Matches -/

/-- The atom leads from one rest of the text to another. -/
inductive Atom.Leads (text : List Char) : Atom → List Char → List Char → Prop
  | start : Leads text .start text text
  | finish : Leads text .finish [] []
  | any {lineFeed : Bool} {c : Char} {rest : List Char} (h : lineFeed = true ∨ c ≠ '\n') :
      Leads text (.any lineFeed) (c :: rest) rest
  | literal {c : Char} {rest : List Char} : Leads text (.literal c) (c :: rest) rest

/-- The factor leads from one rest of the text to another. -/
def Factor.Leads (text : List Char) : Factor → List Char → List Char → Prop
  | .once a => a.Leads text
  | .star a => Relation.ReflTransGen (a.Leads text)

/-- The factors, one after the other, lead from one rest of the text to another. -/
def Leads (text : List Char) : List Factor → List Char → List Char → Prop
  | [], rest, behind => rest = behind
  | f :: factors, rest, behind => ∃ between, f.Leads text rest between ∧
      Leads text factors between behind

/-- The expression matches some part of the text. -/
def IsFoundIn (factors : List Factor) (text : List Char) : Prop :=
  ∃ rest behind, rest <:+ text ∧ Leads text factors rest behind

end Expression

end Like
end DocumentSql
