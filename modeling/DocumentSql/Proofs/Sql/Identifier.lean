/-
# Identifiers

An identifier consists of letters, digits and underscores, in the sense of
Unicode, and is not reserved. No letter and no digit is blank
(`Text.isAlphanumeric_of_isBlank`), so an identifier is a name
(`Identifier.name`), and it has no character that means something else in the
path to a cell or in a reference to a column.

Key definition: `Sql.Identifier`.
Key theorems: `Text.isAlphanumeric_of_isBlank`, `Sql.Identifier.isWord`.
-/
import DocumentSql.Proofs.Select.Column
import DocumentSql.Proofs.Sql.Clauses
import DocumentSql.Proofs.Store.CellPath
import DocumentSql.Text.Alphanumeric

namespace DocumentSql

namespace Text

/-- The code points of the blanks. -/
def blankCodes : List Nat :=
  [0x9, 0xA, 0xB, 0xC, 0xD, 0x20, 0x85, 0xA0, 0x1680, 0x2000, 0x2001, 0x2002, 0x2003, 0x2004,
    0x2005, 0x2006, 0x2007, 0x2008, 0x2009, 0x200A, 0x2028, 0x2029, 0x202F, 0x205F, 0x3000]

theorem mem_blankCodes {c : Char} (h : isBlank c = true) : c.toNat ∈ blankCodes := by
  simp only [isBlank, Bool.or_eq_true, Bool.and_eq_true, decide_eq_true_eq, beq_iff_eq] at h
  simp only [blankCodes, List.mem_cons, List.not_mem_nil, or_false]
  omega

/-- A blank is neither a letter nor a digit. -/
theorem isAlphanumeric_of_isBlank {c : Char} (h : isBlank c = true) : isAlphanumeric c = false := by
  have hcodes : ∀ n ∈ blankCodes, isAlphanumeric (Char.ofNat n) = false := by decide +kernel
  have hcode := hcodes c.toNat (mem_blankCodes h)
  rwa [Char.ofNat_toNat] at hcode

end Text

namespace Sql

/-- Whether a character can stand in an identifier. -/
def isIdentifierChar (c : Char) : Bool := Text.isAlphanumeric c || c = '_'

/-- What is no letter, no digit and no underscore does not stand in an identifier. -/
theorem ne_of_isIdentifierChar {c d : Char} (h : isIdentifierChar c = true)
    (hd : isIdentifierChar d = false) : c ≠ d := by
  rintro rfl
  rw [h] at hd
  cases hd

theorem isWordChar_of_isIdentifierChar {c : Char} (h : isIdentifierChar c = true) :
    isWordChar c = true := by
  have hblank : Text.isBlank c = false := by
    rw [Bool.eq_false_iff]
    intro hb
    rw [isIdentifierChar, Text.isAlphanumeric_of_isBlank hb, Bool.false_or,
      decide_eq_true_eq] at h
    subst h
    exact absurd hb (by decide)
  have hne : ∀ d ∈ ['(', ')', ',', ';', '\'', '"'], c ≠ d := by
    have hmarks : ['(', ')', ',', ';', '\'', '"'].all (fun d => !isIdentifierChar d) = true := by
      decide +kernel
    refine fun d hd => ne_of_isIdentifierChar h ?_
    simpa using List.all_eq_true.mp hmarks d hd
  simp only [List.forall_mem_cons] at hne
  have hmark : isPunctuation c = false := by
    simp [isPunctuation, hne]
  have hquote : isQuote c = false := by
    simp [isQuote, hne]
  rw [isWordChar, hblank, hmark, hquote]
  rfl

/-- A word of letters, digits and underscores that is not reserved. -/
structure Identifier where
  text : String
  nonempty : text ≠ ""
  chars : text.toList.all isIdentifierChar = true
  free : ∀ keyword ∈ reserved, Text.sameWord text keyword = false

namespace Identifier

variable (i : Identifier)

theorem isIdentifierChar_of_mem {c : Char} (hc : c ∈ i.text.toList) : isIdentifierChar c = true :=
  List.all_eq_true.mp i.chars c hc

theorem notMem {d : Char} (hd : isIdentifierChar d = false) : d ∉ i.text.toList :=
  fun hm => ne_of_isIdentifierChar (i.isIdentifierChar_of_mem hm) hd rfl

theorem isWord : IsWord i.text.toList where
  nonempty h := i.nonempty (String.toList_inj.mp h)
  chars c hc := isWordChar_of_isIdentifierChar (i.isIdentifierChar_of_mem hc)
  noEscape := hasNoEscape_of_notMem (i.notMem (by decide +kernel))

/-- The identifier as a name in a statement. -/
def name : Name := ⟨i.text, i.isWord, i.free⟩

theorem isPlainName : CellPath.IsPlainName i.text := by
  intro c hc
  have hne : ∀ {d}, isIdentifierChar d = false → c ≠ d :=
    ne_of_isIdentifierChar (i.isIdentifierChar_of_mem hc)
  exact ⟨hne (by decide +kernel), hne (by decide +kernel), hne (by decide +kernel)⟩

theorem isDotFree : Column.IsDotFree i.text := i.notMem (by decide +kernel)

theorem ne_star : i.text ≠ "*" := by
  intro h
  have hm : '*' ∈ i.text.toList := by rw [h]; decide
  exact i.notMem (by decide +kernel) hm

end Identifier
end Sql
end DocumentSql
