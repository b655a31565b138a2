/-
# LIKE patterns

In a pattern `%` stands for any run of characters and `_` for one character;
every other character stands for itself, and no character takes that meaning
away. Whether a literal has to agree in case is for the caller to say.

A pattern is read from its end. For each rest of the pattern `coverage` lists
which ends of the text it covers, so the work grows with the product of the two
lengths, however many `%` the pattern has. A pattern may be of any length: the
size limit of regular expressions, beyond which LIKE is false, is left out.

Key definitions: `Like.coverage`, `Like.covers`, `Like.matchesExactly`,
`Like.matchesAnyCase`.
-/

namespace DocumentSql
namespace Like

/-- For each place of the list, whether it or a later one is true. -/
def trueFrom : List Bool → List Bool
  | [] => []
  | b :: bs =>
    match trueFrom bs with
    | [] => [b]
    | r :: rs => (b || r) :: r :: rs

/-- The ends of the text that one character covers at their start, the rest of the pattern
covering what is behind it. The empty end is not among them. -/
def literalStep (covered : Char → Bool) (text : List Char) (later : List Bool) : List Bool :=
  List.zipWith (fun c l => covered c && l) text later.tail ++ [false]

/-- For each end of the text, from the whole text to the empty end, whether the pattern covers it;
a literal `p` covers each `c` with `same p c`. -/
def coverage (same : Char → Char → Bool) (text : List Char) : List Char → List Bool
  | [] => text.map (fun _ => false) ++ [true]
  | p :: pattern =>
    let later := coverage same text pattern
    if p = '%' then trueFrom later
    else literalStep (fun c => p == '_' || same p c) text later

/-- Whether the pattern covers the whole text. -/
def covers (same : Char → Char → Bool) (pattern text : List Char) : Bool :=
  (coverage same text pattern).head?.getD false

/-- Whether `pattern` covers `text` when each literal stands for itself only. Patterns beyond the size
limit of regular expressions, for which LIKE is false, are not told apart from others. -/
def matchesExactly (pattern text : String) : Bool :=
  covers (· == ·) pattern.toList text.toList

/-- Whether `pattern` covers `text` when the letters `a` to `z` have no case. -/
def matchesAnyCase (pattern text : String) : Bool :=
  covers (fun p c => p.toLower == c.toLower) pattern.toList text.toList

end Like
end DocumentSql
