/-
# The clauses of a SELECT as data

`Select` holds a SELECT clause by clause, built from names that cannot be taken
for keywords, so that an ill-formed one cannot be built. `Select.pieces` says
what is written for it: keywords, in letters of either case, and texts, exactly
as they are. `Select.query` is the statement that it stands for. Every token
that is written for a piece is a lexeme (`Select.isLexeme_of_writes`), so it can
be laid out.

Key definitions: `Sql.Name`, `Sql.Piece`, `Sql.Writes`, `Sql.Test`, `Sql.Select`,
`Sql.Select.pieces`, `Sql.Select.query`.
Key theorems: `Sql.Select.isLexeme_of_writes`.
-/
import DocumentSql.Sql.Parser
import DocumentSql.Proofs.Lists
import DocumentSql.Proofs.Sql.Layout
import DocumentSql.Proofs.Text.Case

namespace DocumentSql
namespace Sql

/-! ### Names and pieces -/

/-- The words that begin a clause or stand between its parts. -/
def reserved : List String :=
  ["FROM", "AS", "JOIN", "INNER", "LEFT", "RIGHT", "FULL", "OUTER", "ON", "WHERE", "GROUP", "BY",
    "HAVING", "ORDER", "LIMIT", "OFFSET", "AND", "OR", "ASC", "DESC"]

/-- A word that is not reserved. -/
structure Name where
  text : String
  isWord : IsWord text.toList
  free : ∀ keyword ∈ reserved, Text.sameWord text keyword = false

/-- What one token is written for. -/
inductive Piece where
  | keyword (word : String)
  | exact (text : String)

/-- Whether a token is written for a piece: keywords may be in either case. -/
def Piece.IsWrittenAs : Piece → Token → Prop
  | .keyword word, t => t.isWord word = true
  | .exact text, t => t.text = text

instance : DecidableRel Piece.IsWrittenAs
  | .keyword word, t => inferInstanceAs (Decidable (t.isWord word = true))
  | .exact text, t => inferInstanceAs (Decidable (t.text = text))

/-- The tokens are written for the pieces, one for each. -/
abbrev Writes : List Piece → List Token → Prop := List.Forall₂ Piece.IsWrittenAs

/-- The pieces with commas between them. -/
def commaSeparated : List (List Piece) → List Piece
  | [] => []
  | first :: rest => first ++ rest.flatMap (.exact "," :: ·)

/-! ### The select list -/

/-- An item of the select list. -/
inductive Item where
  | column (name : Name)
  | call (function : AggregateFunction) (argument : Name) (aliasName : Option Name)

namespace Item

def pieces : Item → List Piece
  | .column name => [.exact name.text]
  | .call function argument aliasName =>
    [.keyword function.text, .exact "(", .exact argument.text, .exact ")"] ++
      (aliasName.map fun a => [.keyword "AS", .exact a.text]).getD []

def item : Item → SelectItem
  | .column name => .column name.text
  | .call function argument aliasName =>
    .call ⟨function, argument.text, aliasName.map (·.text)⟩

end Item

/-! ### Tables and joins -/

/-- The alias of a table, with or without `AS`. -/
structure Alias where
  announced : Bool
  name : Name

/-- A table with its alias. -/
structure Source where
  table : Name
  aliasName : Option Alias

namespace Source

def aliasPieces (s : Source) : List Piece :=
  match s.aliasName with
  | none => []
  | some a => (if a.announced then [.keyword "AS"] else []) ++ [.exact a.name.text]

def pieces (s : Source) : List Piece := .exact s.table.text :: s.aliasPieces

def aliasText (s : Source) : Option String := s.aliasName.map (·.name.text)

def ref (s : Source) : TableRef := ⟨s.table.text, s.aliasText⟩

end Source

/-- The words that open a join. -/
inductive Opening where
  | plain
  | ofKind (kind : JoinKind) (outer : Bool)

namespace Opening

def pieces : Opening → List Piece
  | .plain => [.keyword "JOIN"]
  | .ofKind kind outer =>
    .keyword kind.text :: (if outer then [.keyword "OUTER"] else []) ++ [.keyword "JOIN"]

def joinKind : Opening → JoinKind
  | .plain => .inner
  | .ofKind kind _ => kind

end Opening

/-- A join with its ON clause. -/
structure Joined where
  opening : Opening
  source : Source
  left : Name
  operator : Name
  right : Name

namespace Joined

def pieces (j : Joined) : List Piece :=
  j.opening.pieces ++ j.source.pieces ++
    [.keyword "ON", .exact j.left.text, .exact j.operator.text, .exact j.right.text]

def join (j : Joined) : Join :=
  ⟨j.opening.joinKind, j.source.table.text, j.source.aliasText,
    ⟨j.left.text, j.operator.text, j.right.text⟩⟩

end Joined

/-! ### Conditions -/

/-- The characters are digits, at least one. -/
def IsDigits (cs : List Char) : Prop := cs ≠ [] ∧ ∀ c ∈ cs, Decimal.isDigit c = true

/-- A name that is not read as a number, a truth value or null. -/
structure Name.IsPlainText (name : Name) : Prop where
  not_digits : ¬ IsDigits name.text.toList
  not_decimal : ¬ ∃ whole fraction, IsDigits whole ∧ IsDigits fraction ∧
    name.text.toList = whole ++ '.' :: fraction
  not_constant : ∀ word ∈ ["TRUE", "FALSE", "NULL"], Text.sameWord name.text word = false

/-- The value of a condition. -/
inductive Value where
  | whole (i : Int64) (nonneg : 0 ≤ i)
  | bool (b : Bool)
  | null
  | quoted (quote : Char) (content : String) (isQuote : isQuote quote = true)
      (isContent : IsContent quote content.toList)
  | word (name : Name) (isPlainText : name.IsPlainText)

namespace Value

def piece : Value → Piece
  | .whole i _ => .exact (Decimal.natText i.toInt.toNat)
  | .bool b => .keyword (if b then "TRUE" else "FALSE")
  | .null => .keyword "NULL"
  | .quoted quote content _ _ => .exact (String.ofList (quote :: (content.toList ++ [quote])))
  | .word name _ => .exact name.text

def scalar : Value → Scalar
  | .whole i _ => .int i
  | .bool b => .bool b
  | .null => .null
  | .quoted _ content _ _ => .text content
  | .word name _ => .text name.text

end Value

/-- The operators that compare with one value. -/
inductive Operator where
  | eq
  | eqEq
  | notEq
  | lessGreater
  | greater
  | less
  | greaterEq
  | lessEq
  | like
deriving DecidableEq

namespace Operator

def piece : Operator → Piece
  | .eq => .exact "="
  | .eqEq => .exact "=="
  | .notEq => .exact "!="
  | .lessGreater => .exact "<>"
  | .greater => .exact ">"
  | .less => .exact "<"
  | .greaterEq => .exact ">="
  | .lessEq => .exact "<="
  | .like => .keyword "LIKE"

def comparison : Operator → Comparison
  | .eq => .eq
  | .eqEq => .eq
  | .notEq => .notEq
  | .lessGreater => .notEq
  | .greater => .greater
  | .less => .less
  | .greaterEq => .greaterEq
  | .lessEq => .lessEq
  | .like => .like

end Operator

/-- How many parentheses are open behind the tokens, if none was closed that was not opened. -/
def depthBehind (depth : Nat) : List Token → Option Nat
  | [] => some depth
  | t :: ts =>
    if t.isChar ')' then
      match depth with
      | 0 => none
      | depth + 1 => depthBehind depth ts
    else depthBehind (if t.isChar '(' then depth + 1 else depth) ts

/-- One condition. The list behind IN may hold any lexemes, if its parentheses match. -/
inductive Test where
  | compare (column : Name) (operator : Operator) (value : Value)
  | inList (column : Name) (inner : List Token) (isLexeme : ∀ t ∈ inner, IsLexeme t.text.toList)
      (matched : depthBehind 0 inner = some 0)

namespace Test

def pieces : Test → List Piece
  | .compare column operator value => [.exact column.text, operator.piece, value.piece]
  | .inList column inner _ _ =>
    [.exact column.text, .keyword "IN", .exact "("] ++ inner.map (.exact ·.text) ++ [.exact ")"]

def condition (connector : Option Connector) : Test → Condition
  | .compare column operator value =>
    ⟨column.text, operator.comparison, value.scalar, connector⟩
  | .inList column inner _ _ => ⟨column.text, .inList, .text (joinTexts inner), connector⟩

end Test

/-- Conditions with the words between them. -/
inductive Tests where
  | last (test : Test)
  | more (test : Test) (connector : Connector) (rest : Tests)

namespace Tests

def pieces : Tests → List Piece
  | .last test => test.pieces
  | .more test connector rest => test.pieces ++ .keyword connector.text :: rest.pieces

def conditions : Tests → List Condition
  | .last test => [test.condition none]
  | .more test connector rest => test.condition (some connector) :: rest.conditions

end Tests

/-! ### The statement -/

/-- A column of ORDER BY. -/
structure Ordered where
  column : Name
  direction : Option Direction

namespace Ordered

def pieces (o : Ordered) : List Piece :=
  .exact o.column.text :: (o.direction.map fun d => [.keyword d.text]).getD []

def item (o : Ordered) : OrderItem := ⟨o.column.text, o.direction.getD .asc⟩

end Ordered

/-- A SELECT, clause by clause. Clauses without content are not written. -/
structure Select where
  items : List Item
  first : Source
  others : List Source
  joins : List Joined
  tests : Option Tests
  groupBy : List Name
  having : Option Tests
  orderBy : List Ordered
  limit : Option UInt64
  offset : Option UInt64
  /-- What comes behind: nothing, or a semicolon and anything. -/
  closing : List Token
  closing_isLexeme : ∀ t ∈ closing, IsLexeme t.text.toList
  closing_head : ∀ t ∈ closing.head?, t.text = ";"

namespace Select

/-- The pieces of a clause that begins with a keyword, none if it is left out. -/
def testPieces (keyword : String) : Option Tests → List Piece
  | none => []
  | some tests => .keyword keyword :: tests.pieces

def byPieces (keyword : String) : List (List Piece) → List Piece
  | [] => []
  | first :: rest => .keyword keyword :: .keyword "BY" :: commaSeparated (first :: rest)

def countPieces (keyword : String) : Option UInt64 → List Piece
  | none => []
  | some n => [.keyword keyword, .exact (Decimal.natText n.toNat)]

variable (s : Select)

/-- What is written for a SELECT. -/
def pieces : List Piece :=
  .keyword "SELECT" :: commaSeparated (s.items.map (·.pieces)) ++
    (.keyword "FROM" :: commaSeparated ((s.first :: s.others).map (·.pieces)) ++
      (s.joins.flatMap (·.pieces) ++
        (testPieces "WHERE" s.tests ++
          (byPieces "GROUP" (s.groupBy.map fun name => [.exact name.text]) ++
            (testPieces "HAVING" s.having ++
              (byPieces "ORDER" (s.orderBy.map (·.pieces)) ++
                (countPieces "LIMIT" s.limit ++
                  (countPieces "OFFSET" s.offset ++ s.closing.map (.exact ·.text)))))))))

/-- The tables of FROM. -/
def refs : List TableRef := (s.first :: s.others).map (·.ref)

/-- The statement that it stands for. -/
def query : Query :=
  { kind := .select
    tables := distinct (s.refs.map (·.table) ++ s.joins.map (·.source.table.text))
    columns := s.items.map (·.item.outputName)
    aggregates := s.items.filterMap (·.item.aggregate?)
    aliases := aliasMap s.refs (s.joins.map (·.join))
    conditions := (s.tests.map (·.conditions)).getD []
    joins := s.joins.map (·.join)
    groupBy := s.groupBy.map (·.text)
    having := (s.having.map (·.conditions)).getD []
    orderBy := s.orderBy.map (·.item)
    limit := s.limit
    offset := s.offset }

end Select

/-! ### What is written are lexemes -/

namespace Piece

/-- Whatever is written for the piece is a lexeme. -/
def IsSound : Piece → Prop
  | .keyword word => word ≠ "" ∧ word.toList.all Char.isUpper = true
  | .exact text => IsLexeme text.toList

theorem isWord_of_keyword {word : String} (hk : (keyword word).IsSound) {t : Token}
    (h : t.isWord word = true) : IsWord t.text.toList := by
  refine isWord_of_isAlphanum ?_ fun c hc => ?_
  · intro hnil
    have hlength := Text.length_eq_of_sameWord h
    rw [hnil, List.length_nil, eq_comm, List.length_eq_zero_iff] at hlength
    exact hk.1 (String.toList_inj.mp hlength)
  · rw [Char.isAlphanum, Text.isAlpha_of_sameWord h (List.all_eq_true.mp hk.2) hc, Bool.true_or]

theorem isLexeme_of_isWrittenAs {piece : Piece} (hp : piece.IsSound) {t : Token}
    (h : piece.IsWrittenAs t) : IsLexeme t.text.toList := by
  cases piece with
  | keyword word => exact .inl (isWord_of_keyword hp h)
  | exact text => exact h ▸ hp

theorem isSound_name (name : Name) : (exact name.text).IsSound := .inl name.isWord

theorem isSound_mark : ∀ text ∈ ["(", ")", ","], (exact text).IsSound := by
  simp only [List.forall_mem_cons]
  exact ⟨.inr (.inr ⟨'(', by decide, by decide⟩), .inr (.inr ⟨')', by decide, by decide⟩),
    .inr (.inr ⟨',', by decide, by decide⟩), List.forall_mem_nil _⟩

theorem isWord_natText (n : Nat) : IsWord (Decimal.natText n).toList := by
  refine isWord_of_isAlphanum ?_ fun c hc => ?_
  · simpa [Decimal.natText] using Decimal.digits_ne_nil n
  · rw [Decimal.natText, String.toList_ofList] at hc
    have hdigit := Decimal.isDigit_of_mem_digits hc
    have hchar : c.isDigit = true := by
      simpa [Decimal.isDigit, Char.isDigit, Char.le_def] using hdigit
    rw [Char.isAlphanum, hchar, Bool.or_true]

theorem isSound_natText (n : Nat) : (exact (Decimal.natText n)).IsSound := .inl (isWord_natText n)

end Piece

theorem isSound_commaSeparated {pieces : List (List Piece)}
    (h : ∀ ps ∈ pieces, ∀ piece ∈ ps, piece.IsSound) :
    ∀ piece ∈ commaSeparated pieces, piece.IsSound := by
  cases pieces with
  | nil => exact List.forall_mem_nil _
  | cons first rest =>
    rw [List.forall_mem_cons] at h
    intro piece hp
    rcases List.mem_append.mp hp with hp | hp
    · exact h.1 piece hp
    · obtain ⟨ps, hps, hp⟩ := List.mem_flatMap.mp hp
      rcases List.mem_cons.mp hp with rfl | hp
      · exact Piece.isSound_mark _ (by decide)
      · exact h.2 ps hps piece hp

theorem Item.isSound (i : Item) : ∀ piece ∈ i.pieces, piece.IsSound := by
  cases i with
  | column name => exact List.forall_mem_singleton.mpr (Piece.isSound_name name)
  | call function argument aliasName =>
    have hfunction : (Piece.keyword function.text).IsSound := by
      cases function <;> exact ⟨by decide, by decide⟩
    have hcall : ∀ piece ∈ [Piece.keyword function.text, .exact "(", .exact argument.text,
        .exact ")"], piece.IsSound := by
      simp only [List.forall_mem_cons]
      exact ⟨hfunction, Piece.isSound_mark _ (by decide), Piece.isSound_name argument,
        Piece.isSound_mark _ (by decide), List.forall_mem_nil _⟩
    intro piece hp
    rcases List.mem_append.mp hp with hp | hp
    · exact hcall piece hp
    · cases aliasName with
      | none => cases hp
      | some a =>
        rcases List.mem_cons.mp hp with rfl | hp
        · exact ⟨by decide, by decide⟩
        · obtain rfl := List.mem_singleton.mp hp
          exact Piece.isSound_name a

theorem Source.isSound (s : Source) : ∀ piece ∈ s.pieces, piece.IsSound := by
  refine List.forall_mem_cons.mpr ⟨Piece.isSound_name s.table, ?_⟩
  unfold Source.aliasPieces
  split
  · exact List.forall_mem_nil _
  · rename_i a _
    refine List.forall_mem_append.mpr ⟨?_, List.forall_mem_singleton.mpr (Piece.isSound_name _)⟩
    split
    · exact List.forall_mem_singleton.mpr ⟨by decide, by decide⟩
    · exact List.forall_mem_nil _

theorem Opening.isSound (o : Opening) : ∀ piece ∈ o.pieces, piece.IsSound := by
  have hjoin : ∀ piece ∈ [Piece.keyword "JOIN"], piece.IsSound :=
    List.forall_mem_singleton.mpr ⟨by decide, by decide⟩
  cases o with
  | plain => exact hjoin
  | ofKind kind outer =>
    refine List.forall_mem_cons.mpr ⟨?_, List.forall_mem_append.mpr ⟨?_, hjoin⟩⟩
    · cases kind <;> exact ⟨by decide, by decide⟩
    · split
      · exact List.forall_mem_singleton.mpr ⟨by decide, by decide⟩
      · exact List.forall_mem_nil _

theorem Joined.isSound (j : Joined) : ∀ piece ∈ j.pieces, piece.IsSound := by
  refine List.forall_mem_append.mpr
    ⟨List.forall_mem_append.mpr ⟨j.opening.isSound, j.source.isSound⟩, ?_⟩
  simp only [List.forall_mem_cons]
  exact ⟨⟨by decide, by decide⟩, Piece.isSound_name _, Piece.isSound_name _,
    Piece.isSound_name _, List.forall_mem_nil _⟩

theorem Value.isSound (v : Value) : v.piece.IsSound := by
  cases v with
  | whole i _ => exact Piece.isSound_natText _
  | bool b => cases b <;> exact ⟨by decide, by decide⟩
  | null => exact ⟨by decide, by decide⟩
  | quoted quote content hq hc =>
    exact .inr (.inl ⟨quote, content.toList, hq, hc, String.toList_ofList⟩)
  | word name _ => exact Piece.isSound_name name

theorem Operator.isSound (o : Operator) : o.piece.IsSound := by
  cases o
  case like => exact ⟨by decide, by decide⟩
  all_goals exact .inl (by decide)

theorem Test.isSound (t : Test) : ∀ piece ∈ t.pieces, piece.IsSound := by
  cases t with
  | compare column operator value =>
    simp only [Test.pieces, List.forall_mem_cons]
    exact ⟨Piece.isSound_name column, operator.isSound, value.isSound, List.forall_mem_nil _⟩
  | inList column inner hl _ =>
    refine List.forall_mem_append.mpr ⟨List.forall_mem_append.mpr ⟨?_, ?_⟩, ?_⟩
    · simp only [List.forall_mem_cons]
      exact ⟨Piece.isSound_name column, ⟨by decide, by decide⟩,
        Piece.isSound_mark _ (by decide), List.forall_mem_nil _⟩
    · exact List.forall_mem_map.mpr hl
    · exact List.forall_mem_singleton.mpr (Piece.isSound_mark _ (by decide))

theorem Tests.isSound : ∀ ts : Tests, ∀ piece ∈ ts.pieces, piece.IsSound
  | .last test => test.isSound
  | .more test connector rest => by
    refine List.forall_mem_append.mpr ⟨test.isSound, List.forall_mem_cons.mpr ⟨?_, rest.isSound⟩⟩
    cases connector <;> exact ⟨by decide, by decide⟩

theorem Ordered.isSound (o : Ordered) : ∀ piece ∈ o.pieces, piece.IsSound := by
  refine List.forall_mem_cons.mpr ⟨Piece.isSound_name o.column, ?_⟩
  cases o.direction with
  | none => exact List.forall_mem_nil _
  | some d =>
    refine List.forall_mem_singleton.mpr ?_
    cases d <;> exact ⟨by decide, by decide⟩

namespace Select

theorem isSound_testPieces {keyword : String} (hk : (Piece.keyword keyword).IsSound)
    (tests : Option Tests) : ∀ piece ∈ testPieces keyword tests, piece.IsSound := by
  cases tests with
  | none => exact List.forall_mem_nil _
  | some tests => exact List.forall_mem_cons.mpr ⟨hk, tests.isSound⟩

theorem isSound_byPieces {keyword : String} (hk : (Piece.keyword keyword).IsSound)
    {pieces : List (List Piece)} (h : ∀ ps ∈ pieces, ∀ piece ∈ ps, piece.IsSound) :
    ∀ piece ∈ byPieces keyword pieces, piece.IsSound := by
  cases pieces with
  | nil => exact List.forall_mem_nil _
  | cons first rest =>
    exact List.forall_mem_cons.mpr ⟨hk, List.forall_mem_cons.mpr
      ⟨⟨by decide, by decide⟩, isSound_commaSeparated h⟩⟩

theorem isSound_countPieces {keyword : String} (hk : (Piece.keyword keyword).IsSound)
    (n : Option UInt64) : ∀ piece ∈ countPieces keyword n, piece.IsSound := by
  cases n with
  | none => exact List.forall_mem_nil _
  | some n =>
    exact List.forall_mem_cons.mpr ⟨hk, List.forall_mem_singleton.mpr (Piece.isSound_natText _)⟩

theorem isSound (s : Select) : ∀ piece ∈ s.pieces, piece.IsSound := by
  refine List.forall_mem_cons.mpr ⟨⟨by decide, by decide⟩, List.forall_mem_append.mpr ⟨?_, ?_⟩⟩
  · exact isSound_commaSeparated (List.forall_mem_map.mpr fun i _ => i.isSound)
  refine List.forall_mem_cons.mpr ⟨⟨by decide, by decide⟩, List.forall_mem_append.mpr ⟨?_, ?_⟩⟩
  · exact isSound_commaSeparated (List.forall_mem_map.mpr fun r _ => r.isSound)
  refine List.forall_mem_append.mpr ⟨?_, ?_⟩
  · intro piece hp
    obtain ⟨j, -, hp⟩ := List.mem_flatMap.mp hp
    exact j.isSound piece hp
  refine List.forall_mem_append.mpr ⟨isSound_testPieces ⟨by decide, by decide⟩ _, ?_⟩
  refine List.forall_mem_append.mpr ⟨isSound_byPieces ⟨by decide, by decide⟩ ?_, ?_⟩
  · exact List.forall_mem_map.mpr fun name _ =>
      List.forall_mem_singleton.mpr (Piece.isSound_name name)
  refine List.forall_mem_append.mpr ⟨isSound_testPieces ⟨by decide, by decide⟩ _, ?_⟩
  refine List.forall_mem_append.mpr ⟨isSound_byPieces ⟨by decide, by decide⟩ ?_, ?_⟩
  · exact List.forall_mem_map.mpr fun o _ => o.isSound
  refine List.forall_mem_append.mpr ⟨isSound_countPieces ⟨by decide, by decide⟩ _, ?_⟩
  refine List.forall_mem_append.mpr ⟨isSound_countPieces ⟨by decide, by decide⟩ _, ?_⟩
  exact List.forall_mem_map.mpr s.closing_isLexeme

/-- Every token that is written for a SELECT is a lexeme. -/
theorem isLexeme_of_writes {s : Select} {ts : List Token} (h : Writes s.pieces ts) :
    ∀ t ∈ ts, IsLexeme t.text.toList := by
  intro t ht
  obtain ⟨piece, hp, hw⟩ := exists_of_mem_forall₂ h ht
  exact Piece.isLexeme_of_isWrittenAs (s.isSound piece hp) hw

end Select
end Sql
end DocumentSql
