/-
# Letter case

Keywords are compared without regard to the case of the letters `a` to `z`;
all other characters have no case here.

Key definitions: `Text.upper`, `Text.lower`, `Text.sameWord`.
-/

namespace DocumentSql
namespace Text

/-- The text with the letters `a` to `z` written as capitals. -/
def upper (s : String) : String :=
  String.ofList (s.toList.map Char.toUpper)

/-- The text with the letters `A` to `Z` written small. -/
def lower (s : String) : String :=
  String.ofList (s.toList.map Char.toLower)

/-- Whether two texts differ at most in the case of their letters `a` to `z`. -/
def sameWord (a b : String) : Bool :=
  upper a == upper b

theorem sameWord_refl (a : String) : sameWord a a = true := by
  simp [sameWord]

end Text
end DocumentSql
