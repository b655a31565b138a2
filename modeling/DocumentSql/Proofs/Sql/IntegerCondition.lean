/-
# A condition with an integer

An integer is written in a condition by its decimal text. Without a sign the
text is read as the integer; the sign of a negative one makes it a word, which
stands for a text (`Value.scalar_ofInt`). The SELECT of one column under one such
condition, with single spaces between its tokens, is read back
(`Query.ofText_integerQuery`).

Key definitions: `Sql.Value.ofInt`, `Sql.integerQuery`, `Query.ofCondition`.
Key theorems: `Query.ofText_joined`, `Sql.Value.scalar_ofInt`,
`Query.ofText_integerQuery`.
-/
import DocumentSql.Proofs.Sql.Identifier
import DocumentSql.Proofs.Sql.RoundTrip

namespace DocumentSql

namespace Sql

/-! ### Single spaces -/

/-- Lexemes with a space between them are laid out. -/
theorem LaysOut.joined : ∀ lexemes : List (List Char),
    LaysOut lexemes ([' '].intercalate lexemes)
  | [] => .nil
  | [lexeme] => by
    rw [List.intercalate_singleton]
    have hlast := @LaysOut.cons lexeme [] [] [] .nil (fun _ _ _ h => by cases h) .nil
    rwa [List.append_nil, List.append_nil] at hlast
  | lexeme :: next :: lexemes => by
    have hgap : IsGap [' '] := .blank (by decide) .nil
    rw [List.intercalate_cons_cons, List.append_assoc]
    exact .cons hgap (fun he => by cases he) (LaysOut.joined (next :: lexemes))

/-- A SELECT as a text, with a space between its tokens. -/
def Select.joined (s : Select) : String := " ".intercalate (s.pieces.map (·.token.text))

end Sql

/-- A SELECT with a space between its tokens is read back. -/
theorem Query.ofText_joined (s : Sql.Select) : ofText s.joined = s.query := by
  have htext : s.joined =
      String.ofList ([' '].intercalate (s.pieces.map fun piece => piece.token.text.toList)) := by
    rw [Sql.Select.joined, ← String.toList_inj, String.toList_ofList, String.toList_intercalate,
      List.map_map]
    rfl
  rw [htext]
  exact ofText_layout s (Sql.LaysOut.joined _)

namespace Sql

/-! ### Integers as values -/

/-- A negative integer is written with a minus sign. -/
theorem toList_intText_of_neg {n : Int64} (h : n < 0) :
    (Decimal.intText n.toInt).toList = '-' :: Decimal.digits n.toInt.natAbs := by
  have hneg : n.toInt < 0 := Int64.lt_iff_toInt_lt.mp h
  rw [Decimal.intText, Decimal.intChars, if_pos hneg, String.toList_ofList]

theorem natText_toInt {n : Int64} (h : ¬ n < 0) :
    Decimal.natText n.toInt.toNat = Decimal.intText n.toInt := by
  have hneg : ¬ n.toInt < 0 := fun hn => h (Int64.lt_iff_toInt_lt.mpr hn)
  have hnat : n.toInt.natAbs = n.toInt.toNat := by omega
  rw [Decimal.natText, Decimal.intText, Decimal.intChars, if_neg hneg, hnat]

/-- A word with another character of words in front, which begins no escape, is a word. -/
theorem IsWord.cons {cs : List Char} (h : IsWord cs) {c : Char} (hc : isWordChar c = true)
    (hne : c ≠ '\\') : IsWord (c :: cs) where
  nonempty := List.cons_ne_nil _ _
  chars := List.forall_mem_cons.mpr ⟨hc, h.chars⟩
  noEscape := h.noEscape.cons fun _ _ he => absurd he hne

/-- What begins with a minus sign is no word of letters. -/
theorem sameWord_of_minus {text : String} {cs : List Char} (ht : text.toList = '-' :: cs)
    {keyword : String} (hk : keyword.toList.all Char.isUpper = true) :
    Text.sameWord text keyword = false := by
  rw [Bool.eq_false_iff]
  intro h
  have hletter := Text.isAlpha_of_sameWord (c := '-') h (List.all_eq_true.mp hk)
    (ht ▸ List.mem_cons_self)
  exact absurd hletter (by decide)

/-- A negative integer as a word. -/
def minusName (n : Int64) (h : n < 0) : Name where
  text := Decimal.intText n.toInt
  isWord := by
    have hdigits := Piece.isWord_natText n.toInt.natAbs
    rw [Decimal.natText, String.toList_ofList] at hdigits
    rw [toList_intText_of_neg h]
    exact hdigits.cons (by decide) (by decide)
  free keyword hk := by
    have hupper : ∀ word ∈ reserved, word.toList.all Char.isUpper = true := by decide
    exact sameWord_of_minus (toList_intText_of_neg h) (hupper keyword hk)

/-- The minus sign makes the word a text. -/
theorem isPlainText_minusName {n : Int64} (h : n < 0) : (minusName n h).IsPlainText where
  not_digits hd := by
    have hm : '-' ∈ (minusName n h).text.toList :=
      toList_intText_of_neg h ▸ List.mem_cons_self
    exact absurd (hd.2 '-' hm) (by decide)
  not_decimal := by
    rintro ⟨whole, fraction, hw, -, he⟩
    obtain ⟨c, cs, rfl⟩ := List.exists_cons_of_ne_nil hw.1
    have hhead : '-' = c := (List.cons.inj ((toList_intText_of_neg h).symm.trans he)).1
    exact absurd (hw.2 c List.mem_cons_self) (hhead ▸ by decide)
  not_constant word hm := by
    have hupper : ∀ word ∈ ["TRUE", "FALSE", "NULL"], word.toList.all Char.isUpper = true := by
      decide
    exact sameWord_of_minus (toList_intText_of_neg h) (hupper word hm)

namespace Value

/-- The value that the decimal text of an integer is. -/
def ofInt (n : Int64) : Value :=
  if h : n < 0 then .word (minusName n h) (isPlainText_minusName h)
  else .whole n (Int64.not_lt.mp h)

theorem piece_ofInt (n : Int64) : (ofInt n).piece = .exact (Decimal.intText n.toInt) := by
  unfold ofInt
  split
  · rfl
  · rename_i h
    rw [piece, natText_toInt h]

/-- A negative integer is read as a text. -/
theorem scalar_ofInt (n : Int64) :
    (ofInt n).scalar = if n < 0 then .text (Decimal.intText n.toInt) else .int n := by
  unfold ofInt
  split <;> rfl

end Value

/-! ### The statement -/

namespace Operator

variable {o : Operator}

theorem comparison_ne_inList : o.comparison ≠ .inList := by cases o <;> decide

theorem comparison_ne_like (h : o ≠ .like) : o.comparison ≠ .like := by
  cases o <;> first | exact absurd rfl h | decide

end Operator

theorem isLexeme_of_mem_nil : ∀ t ∈ ([] : List Token), IsLexeme t.text.toList :=
  List.forall_mem_nil _

theorem text_of_mem_head_nil : ∀ t ∈ ([] : List Token).head?, t.text = ";" :=
  fun _ h => absurd h (Option.not_mem_none _)

/-- The SELECT of a column of a table, under a condition on the column. -/
def Select.byInteger (column table : Identifier) (operator : Operator) (n : Int64) : Select where
  items := [.column column.name]
  first := ⟨table.name, none⟩
  others := []
  joins := []
  tests := some (.last (.compare column.name operator (.ofInt n)))
  groupBy := []
  having := none
  orderBy := []
  limit := none
  offset := none
  closing := []
  closing_isLexeme := isLexeme_of_mem_nil
  closing_head := text_of_mem_head_nil

/-- The text `SELECT column FROM table WHERE column operator n`. -/
def integerQuery (column table : Identifier) (operator : Operator) (n : Int64) : String :=
  " ".intercalate ["SELECT", column.text, "FROM", table.text, "WHERE", column.text,
    operator.piece.token.text, Decimal.intText n.toInt]

theorem joined_byInteger (column table : Identifier) (operator : Operator) (n : Int64) :
    (Select.byInteger column table operator n).joined = integerQuery column table operator n := by
  rw [Select.joined, integerQuery]
  simp only [Select.byInteger, Select.pieces, Select.testPieces, Select.byPieces,
    Select.countPieces, Tests.pieces, Test.pieces, Item.pieces, Source.pieces, Source.aliasPieces,
    commaSeparated, Value.piece_ofInt, Identifier.name, Piece.token, List.map_cons, List.map_nil,
    List.flatMap_nil, List.append_nil, List.cons_append, List.nil_append]

end Sql

/-- One column of one table, under one condition on the column. -/
def Query.ofCondition (column table : String) (comparison : Comparison) (value : Scalar) : Query :=
  { kind := .select
    tables := [table]
    columns := [column]
    conditions := [⟨column, comparison, value, none⟩] }

theorem Query.ofText_integerQuery (column table : Sql.Identifier) (operator : Sql.Operator)
    (n : Int64) :
    ofText (Sql.integerQuery column table operator n) =
      ofCondition column.text table.text operator.comparison (Sql.Value.ofInt n).scalar := by
  rw [← Sql.joined_byInteger, ofText_joined]
  rfl

end DocumentSql
