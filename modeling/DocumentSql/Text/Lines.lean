/-
# Lines

A line ends at a line feed, and a carriage return in front of the line feed
belongs to the end. Behind the last line feed there is a line only if something
stands there.

Key definition: `Text.lines`.
-/

namespace DocumentSql
namespace Text

/-- The characters without a carriage return at the end. -/
def dropReturn (cs : List Char) : List Char :=
  if cs.getLast? = some '\r' then cs.dropLast else cs

/-- The characters up to the first line feed and those behind it, if there is one. -/
def splitLine : List Char → List Char × Option (List Char)
  | [] => ([], none)
  | c :: cs =>
    if c = '\n' then ([], some cs)
    else
      let (line, rest) := splitLine cs
      (c :: line, rest)

theorem length_splitLine {cs rest : List Char} (h : (splitLine cs).2 = some rest) :
    rest.length < cs.length := by
  induction cs with
  | nil => simp [splitLine] at h
  | cons c cs ih =>
    simp only [splitLine] at h
    split at h
    · simp only [Option.some.injEq] at h
      simp [← h]
    · exact Nat.lt_succ_of_lt (ih h)

/-- The lines of a text. -/
def lines (cs : List Char) : List (List Char) :=
  if cs.isEmpty then []
  else
    match _h : (splitLine cs).2 with
    | some rest => dropReturn (splitLine cs).1 :: lines rest
    | none => [(splitLine cs).1]
termination_by cs.length
decreasing_by exact length_splitLine _h

end Text
end DocumentSql
