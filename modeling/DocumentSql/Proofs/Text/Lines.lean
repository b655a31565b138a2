/-
# Lines that are written are read back

A line feed behind characters that hold none makes a line of them. The carriage
return that a reader takes for a part of the line's end is the only thing that it
leaves out, so it gets back every line that does not end in one
(`Text.lines_flatMap`).

Key definition: `Text.IsLine`.
Key theorem: `Text.lines_flatMap`.
-/
import DocumentSql.Text.Lines

namespace DocumentSql
namespace Text

/-- Characters that are a line: no line feed among them, and no carriage return at the end. -/
structure IsLine (cs : List Char) : Prop where
  notMem : '\n' ∉ cs
  getLast?_ne : cs.getLast? ≠ some '\r'

theorem splitLine_append : ∀ {cs : List Char}, '\n' ∉ cs → ∀ rest : List Char,
    splitLine (cs ++ '\n' :: rest) = (cs, some rest)
  | [], _, _ => rfl
  | c :: cs, h, rest => by
    rw [List.mem_cons, not_or] at h
    rw [List.cons_append, splitLine, if_neg (Ne.symm h.1), splitLine_append h.2 rest]

theorem lines_append {cs : List Char} (h : IsLine cs) (rest : List Char) :
    lines (cs ++ '\n' :: rest) = cs :: lines rest := by
  have hsplit := splitLine_append h.notMem rest
  have hdrop : dropReturn cs = cs := if_neg h.getLast?_ne
  rw [lines, if_neg (by simp)]
  split
  · rename_i behind hbehind
    rw [hsplit] at hbehind
    obtain rfl := Option.some.inj hbehind
    rw [hsplit, hdrop]
  · rename_i hnone
    rw [hsplit] at hnone
    cases hnone

/-- A text in which every line is ended by a line feed has just these lines. -/
theorem lines_flatMap : ∀ {written : List (List Char)}, (∀ line ∈ written, IsLine line) →
    lines (written.flatMap (· ++ ['\n'])) = written
  | [], _ => by rw [List.flatMap_nil, lines, if_pos List.isEmpty_nil]
  | line :: written, h => by
    rw [List.forall_mem_cons] at h
    rw [List.flatMap_cons, List.append_assoc, List.singleton_append, lines_append h.1,
      lines_flatMap h.2]

end Text
end DocumentSql
