/-
# A SELECT that is written is read back

Each clause behind the joins reads back what is written for it and leaves what
follows, if that ends the clause; whether it is written or left out, what it
leaves ends the clause before it. Put together, the tokens that are written for
a SELECT are read as its statement (`selectStatement_of_writes`), and so is
every text that lays them out (`Query.ofText_of_laysOut`), such as the one that
`Select.print` makes (`Query.ofText_print`).

Key definition: `Sql.Select.print`.
Key theorems: `Sql.conditionClause_of_writes`, `Sql.groupByClause_of_writes`,
`Sql.orderByClause_of_writes`, `Sql.countClause_of_writes`,
`Sql.selectStatement_of_writes`, `Query.ofText_of_laysOut`.
-/
import DocumentSql.Proofs.Sql.FromClause

namespace DocumentSql
namespace Sql

/-! ### Conditions -/

theorem writes_tokens : ∀ {ts us : List Token},
    Writes (ts.map fun t => .exact t.text) us → us = ts
  | [], _, h => writes_nil h
  | t :: ts, _, h => by
    obtain ⟨u, us, rfl, hu, hus⟩ := writes_cons h
    cases t
    cases u
    obtain rfl := hu
    rw [writes_tokens hus]

/-- Tokens with matching parentheses are passed over. -/
theorem untilClose_of_depthBehind (rest : List Token) : ∀ (inner : List Token) (depth : Nat)
    {depth' : Nat}, depthBehind depth inner = some depth' →
      untilClose depth (inner ++ rest) =
        (untilClose depth' rest).map fun (more, behind) => (inner ++ more, behind)
  | [], depth, _, h => by
    obtain rfl := Option.some.inj h
    simp
  | t :: inner, depth, depth', h => by
    unfold depthBehind at h
    rw [List.cons_append, untilClose.eq_def depth]
    simp only
    split at h
    · rename_i hclose
      rw [if_pos hclose]
      cases depth with
      | zero => cases h
      | succ depth =>
        simp only at h ⊢
        rw [untilClose_of_depthBehind rest inner depth h, Option.map_map]
        rfl
    · rename_i hclose
      rw [if_neg hclose, untilClose_of_depthBehind rest inner _ h, Option.map_map]
      rfl

/-- One step of the conditions. -/
theorem conditions_cons {stops : List String} {column operator value : Token}
    {rest behind : List Token} {v : Scalar}
    (hstop : atBoundary stops (column :: operator :: value :: rest) = false)
    (hvalue : conditionValue (Comparison.ofOperator operator.text) value rest = .ok (v, behind)) :
    conditions stops (column :: operator :: value :: rest) =
      (conditions stops (connector behind).2).map fun (more, ts) =>
        (⟨column.text, Comparison.ofOperator operator.text, v, (connector behind).1⟩ :: more,
          ts) := by
  rw [conditions.eq_def]
  simp only [hstop, Bool.false_eq_true, if_false]
  split
  · rename_i herror
    rw [hvalue] at herror
    cases herror
  · rename_i hok
    rw [hvalue] at hok
    obtain ⟨rfl, rfl⟩ := Prod.mk.inj (Except.ok.inj hok)
    rfl

/-- One condition is read back, with the connector behind it. -/
theorem conditions_test {stops : List String} (hstops : ∀ stop ∈ stops, stop ∈ reserved)
    (test : Test) {ts rest : List Token} (hw : Writes test.pieces ts) :
    conditions stops (ts ++ rest) =
      (conditions stops (connector rest).2).map fun (more, behind) =>
        (test.condition (connector rest).1 :: more, behind) := by
  cases test with
  | compare column operator value =>
    obtain ⟨t, us, rfl, ht, hus⟩ := writes_cons hw
    obtain ⟨o, us, rfl, ho, hus⟩ := writes_cons hus
    obtain ⟨v, us, rfl, hv, hus⟩ := writes_cons hus
    obtain rfl := writes_nil hus
    have hcomparison := Operator.ofOperator_of_isWrittenAs ho
    have hnotIn : operator.comparison ≠ .inList := by cases operator <;> decide
    have hvalue : conditionValue (Comparison.ofOperator o.text) v rest =
        .ok (value.scalar, rest) := by
      rw [hcomparison, conditionValue, decide_eq_false hnotIn, Bool.false_and,
        if_neg Bool.false_ne_true, Value.scalar_of_isWrittenAs hv]
    simp only [List.cons_append, List.nil_append]
    rw [conditions_cons (Name.atBoundary_eq_false ht hstops _) hvalue, hcomparison,
      show t.text = column.text from ht]
    rfl
  | inList column inner hl hmatched =>
    obtain ⟨opened, vs, rfl, hopened, hvs⟩ := writes_append hw
    obtain ⟨us, inside, rfl, hus, hinner⟩ := writes_append hopened
    obtain rfl := writes_tokens hinner
    obtain ⟨t, us, rfl, ht, hus⟩ := writes_cons hus
    obtain ⟨o, us, rfl, ho, hus⟩ := writes_cons hus
    obtain ⟨p, us, rfl, hp, hus⟩ := writes_cons hus
    obtain rfl := writes_nil hus
    obtain ⟨c, vs, rfl, hc, hvs⟩ := writes_cons hvs
    obtain rfl := writes_nil hvs
    have hopen : p.isChar '(' = true := by rw [Token.isChar, show p.text = "(" from hp]; decide
    have hclose : c.isChar ')' = true := by rw [Token.isChar, show c.text = ")" from hc]; decide
    have hcomparison : Comparison.ofOperator o.text = .inList := ofOperator_in ho
    have huntil : untilClose 0 (inside ++ c :: rest) = some (inside, rest) := by
      rw [untilClose_of_depthBehind (c :: rest) inside 0 hmatched, untilClose, if_pos hclose]
      simp
    have hvalue : conditionValue (Comparison.ofOperator o.text) p (inside ++ c :: rest) =
        .ok (.text (joinTexts inside), rest) := by
      rw [hcomparison, conditionValue, hopen, huntil]
      rfl
    simp only [List.cons_append, List.nil_append, List.append_assoc]
    rw [conditions_cons (Name.atBoundary_eq_false ht hstops _) hvalue, hcomparison,
      show t.text = column.text from ht]
    rfl

/-- Conditions are read back. -/
theorem conditions_of_writes {stops : List String} (hstops : ∀ stop ∈ stops, stop ∈ reserved)
    (hconnectors : ∀ stop ∈ ";" :: stops, ∀ keyword ∈ ["AND", "OR"],
      Text.sameWord stop keyword = false) {rest : List Token}
    (hrest : atBoundary stops rest = true) : ∀ (tests : Tests) {ts : List Token},
      Writes tests.pieces ts → conditions stops (ts ++ rest) = .ok (tests.conditions, rest)
  | .last test, ts, hw => by
    have hend : conditions stops rest = .ok ([], rest) := by
      rw [conditions.eq_def, if_pos hrest]
    rw [conditions_test hstops test hw, (connector_of_atBoundary hrest hconnectors).1, hend]
    rfl
  | .more test c tests, ts, hw => by
    obtain ⟨us, vs, rfl, hus, hvs⟩ := writes_append hw
    obtain ⟨t, vs, rfl, ht, hvs⟩ := writes_cons hvs
    have hconnector : connector (t :: vs ++ rest) = (some c, vs ++ rest) := by
      rw [List.cons_append, connector, Connector.ofWord?_eq_some ht]
    rw [List.append_assoc, conditions_test hstops test hus, hconnector]
    simp only
    rw [conditions_of_writes hstops hconnectors hrest tests hvs]
    rfl

/-! ### Clauses that can be left out -/

/-- A clause that begins with its keyword, or is left out, ends the clause before it. -/
theorem atBoundary_of_writes {keyword : String} {stops : List String} {pieces : List Piece}
    {ts rest : List Token} (hp : ∀ piece ∈ pieces.head?, piece = .keyword keyword)
    (hw : Writes pieces ts) (hrest : atBoundary stops rest = true) :
    atBoundary (keyword :: stops) (ts ++ rest) = true := by
  cases pieces with
  | nil =>
    obtain rfl := writes_nil hw
    exact atBoundary_mono (fun _ => List.mem_cons_of_mem _) hrest
  | cons piece pieces =>
    obtain rfl := hp piece rfl
    obtain ⟨t, us, rfl, ht, -⟩ := writes_cons hw
    exact atBoundary_cons_of_isWord ht List.mem_cons_self _

/-- The conditions behind a keyword are read back. -/
theorem conditionClause_of_writes {keyword : String} {stops : List String}
    (hstops : ∀ stop ∈ stops, stop ∈ reserved)
    (hwords : ∀ stop ∈ ";" :: stops, ∀ word ∈ [keyword, "AND", "OR"],
      Text.sameWord stop word = false)
    (tests : Option Tests) {ts rest : List Token}
    (hw : Writes (Select.testPieces keyword tests) ts) (hrest : atBoundary stops rest = true) :
    conditionClause keyword stops (ts ++ rest) =
      .ok ((tests.map (·.conditions)).getD [], rest) := by
  cases tests with
  | none =>
    obtain rfl := writes_nil hw
    have hkeyword : ∀ stop ∈ ";" :: stops, Text.sameWord stop keyword = false :=
      fun stop hm => hwords stop hm keyword List.mem_cons_self
    rw [List.nil_append, conditionClause, afterWord?_of_atBoundary hrest hkeyword]
    rfl
  | some tests =>
    obtain ⟨t, us, rfl, ht, hus⟩ := writes_cons hw
    have hconnectors : ∀ stop ∈ ";" :: stops, ∀ word ∈ ["AND", "OR"],
        Text.sameWord stop word = false :=
      fun stop hm word hword => hwords stop hm word (List.mem_cons_of_mem _ hword)
    rw [List.cons_append, conditionClause, afterWord?_of_isWord ht]
    exact conditions_of_writes hstops hconnectors hrest tests hus

/-- A keyword with `BY` is passed over, unless its clause is left out. -/
theorem afterBy_of_writes {keyword : String} {stops : List String} {pieces : List (List Piece)}
    (hk : ∀ stop ∈ ";" :: stops, Text.sameWord stop keyword = false) {ts rest : List Token}
    (hw : Writes (Select.byPieces keyword pieces) ts) (hrest : atBoundary stops rest = true) :
    pieces = [] ∧ ts = [] ∧ afterBy keyword rest = .ok none ∨
      ∃ us, Writes (commaSeparated pieces) us ∧
        afterBy keyword (ts ++ rest) = .ok (some (us ++ rest)) := by
  cases pieces with
  | nil =>
    refine .inl ⟨rfl, writes_nil hw, ?_⟩
    rw [afterBy, afterWord?_of_atBoundary hrest hk]
  | cons first pieces =>
    obtain ⟨t, us, rfl, ht, hus⟩ := writes_cons hw
    obtain ⟨u, us, rfl, hu, hus⟩ := writes_cons hus
    refine .inr ⟨us, hus, ?_⟩
    rw [List.cons_append, afterBy, afterWord?_of_isWord ht]
    simp only [List.cons_append, afterWord?_of_isWord hu]

/-! ### Columns -/

theorem columnNames_of_writes {stops : List String} (hs : ∀ stop ∈ stops, stop ∈ reserved)
    (names : List Name) {ts rest : List Token}
    (hw : Writes (commaSeparated (names.map fun name => [.exact name.text])) ts)
    (hrest : atBoundary stops rest = true) :
    columnNames stops (ts ++ rest) = (names.map (·.text), rest) := by
  have hitem : ∀ (name : Name) ts rest, Writes [.exact name.text] ts →
      Separates (atBoundary stops · = true) rest → columnNames stops (ts ++ rest) =
        (name.text :: (columnNames stops rest).1, (columnNames stops rest).2) := by
    intro name ts rest hw _
    obtain ⟨t, us, rfl, ht, hus⟩ := writes_cons hw
    obtain rfl := writes_nil hus
    have hcomma : t.isChar ',' = false := Name.isChar_eq_false ht (by decide)
    simp only [List.cons_append, List.nil_append, columnNames, Name.atBoundary_eq_false ht hs,
      hcomma, Bool.false_eq_true, if_false]
    rw [show t.text = name.text from ht]
  refine Except.ok.inj (read_commaSeparated (fun ts => .ok (columnNames stops ts)) ?_ ?_
    (fun name ts rest hw h => congrArg Except.ok (hitem name ts rest hw h)) names hw hrest)
  · intro t rest ht
    have hcomma : t.isChar ',' = true := by rw [Token.isChar, ht]; decide
    simp only [columnNames, atBoundary_comma ht hs, hcomma, Bool.false_eq_true, if_false, if_true]
  · intro rest h
    cases rest with
    | nil => rfl
    | cons t ts => simp only [columnNames, h, if_true]

/-- The columns of GROUP BY are read back. -/
theorem groupByClause_of_writes (names : List Name) {ts rest : List Token}
    (hw : Writes (Select.byPieces "GROUP" (names.map fun name => [.exact name.text])) ts)
    (hrest : atBoundary groupStop rest = true) :
    groupByClause (ts ++ rest) = .ok (names.map (·.text), rest) := by
  rcases afterBy_of_writes (by decide) hw hrest with ⟨hnil, rfl, hafter⟩ | ⟨us, hus, hafter⟩
  · obtain rfl := List.map_eq_nil_iff.mp hnil
    rw [List.nil_append, groupByClause, hafter]
    rfl
  · have hnames := columnNames_of_writes (by decide) names hus hrest
    simp only [groupByClause, hafter, bind, Except.bind, pure, Except.pure, hnames]

theorem direction_of_separates {rest : List Token}
    (h : Separates (atBoundary orderStop · = true) rest) : direction rest = (.asc, rest) := by
  rcases h with h | ⟨t, ts, rfl, ht⟩
  · exact direction_of_atBoundary h (by decide)
  · have hnone : Direction.ofWord? t.text = none :=
      Direction.ofWord?_eq_none (by rw [ht]; decide)
    simp only [direction, hnone]

theorem direction_of_writes (d : Option Direction) {ts rest : List Token}
    (hw : Writes ((d.map fun d => [Piece.keyword d.text]).getD []) ts)
    (hrest : Separates (atBoundary orderStop · = true) rest) :
    direction (ts ++ rest) = (d.getD .asc, rest) := by
  cases d with
  | none =>
    obtain rfl := writes_nil hw
    exact direction_of_separates hrest
  | some d =>
    obtain ⟨t, us, rfl, ht, hus⟩ := writes_cons hw
    obtain rfl := writes_nil hus
    simp only [List.cons_append, List.nil_append, direction, Direction.ofWord?_eq_some ht,
      Option.getD_some]

theorem orderItems_of_writes (columns : List Ordered) {ts rest : List Token}
    (hw : Writes (commaSeparated (columns.map (·.pieces))) ts)
    (hrest : atBoundary orderStop rest = true) :
    orderItems orderStop (ts ++ rest) = (columns.map (·.item), rest) := by
  have hs : ∀ stop ∈ orderStop, stop ∈ reserved := by decide
  have hitem : ∀ (o : Ordered) ts rest, Writes o.pieces ts →
      Separates (atBoundary orderStop · = true) rest → orderItems orderStop (ts ++ rest) =
        (o.item :: (orderItems orderStop rest).1, (orderItems orderStop rest).2) := by
    intro o ts rest hw hrest
    obtain ⟨t, us, rfl, ht, hus⟩ := writes_cons hw
    have hcomma : t.isChar ',' = false := Name.isChar_eq_false ht (by decide)
    rw [List.cons_append, orderItems.eq_def]
    simp only [Name.atBoundary_eq_false ht hs, hcomma, Bool.false_eq_true, if_false,
      direction_of_writes o.direction hus hrest]
    rw [show t.text = o.column.text from ht]
    rfl
  refine Except.ok.inj (read_commaSeparated (fun ts => .ok (orderItems orderStop ts)) ?_ ?_
    (fun o ts rest hw h => congrArg Except.ok (hitem o ts rest hw h)) columns hw hrest)
  · intro t rest ht
    have hcomma : t.isChar ',' = true := by rw [Token.isChar, ht]; decide
    rw [orderItems.eq_def]
    simp only [atBoundary_comma ht hs, hcomma, Bool.false_eq_true, if_false, if_true]
  · intro rest h
    cases rest with
    | nil => rw [orderItems.eq_def]
    | cons t ts =>
      rw [orderItems.eq_def]
      simp only [h, if_true]

/-- The columns of ORDER BY are read back. -/
theorem orderByClause_of_writes (columns : List Ordered) {ts rest : List Token}
    (hw : Writes (Select.byPieces "ORDER" (columns.map (·.pieces))) ts)
    (hrest : atBoundary orderStop rest = true) :
    orderByClause (ts ++ rest) = .ok (columns.map (·.item), rest) := by
  rcases afterBy_of_writes (by decide) hw hrest with ⟨hnil, rfl, hafter⟩ | ⟨us, hus, hafter⟩
  · obtain rfl := List.map_eq_nil_iff.mp hnil
    rw [List.nil_append, orderByClause, hafter]
    rfl
  · have hitems := orderItems_of_writes columns hus hrest
    simp only [orderByClause, hafter, bind, Except.bind, pure, Except.pure, hitems]

/-! ### Counts -/

/-- A count is read back. -/
theorem countClause_of_writes {keyword : String} {stops : List String}
    (hk : ∀ stop ∈ ";" :: stops, Text.sameWord stop keyword = false) (n : Option UInt64)
    {ts rest : List Token} (hw : Writes (Select.countPieces keyword n) ts)
    (hrest : atBoundary stops rest = true) :
    countClause keyword (ts ++ rest) = (n, rest) := by
  cases n with
  | none =>
    obtain rfl := writes_nil hw
    rw [List.nil_append, countClause, afterWord?_of_atBoundary hrest hk]
  | some n =>
    obtain ⟨t, us, rfl, ht, hus⟩ := writes_cons hw
    obtain ⟨u, us, rfl, hu, hus⟩ := writes_cons hus
    obtain rfl := writes_nil hus
    have htext : u.text = Decimal.natText n.toNat := hu
    have hcount : countOf? u = some n := by
      rw [countOf?, htext, Decimal.natText, String.toList_ofList, Decimal.natural?_digits]
      simp only [n.toNat_lt, UInt64.size, if_true, UInt64.ofNat_toNat]
    simp only [countClause, List.cons_append, List.nil_append, afterWord?_of_isWord ht, hcount]

/-! ### The statement -/

theorem head_testPieces {keyword : String} (tests : Option Tests) :
    ∀ piece ∈ (Select.testPieces keyword tests).head?, piece = .keyword keyword := by
  cases tests <;> simp [Select.testPieces]

theorem head_byPieces {keyword : String} (pieces : List (List Piece)) :
    ∀ piece ∈ (Select.byPieces keyword pieces).head?, piece = .keyword keyword := by
  cases pieces <;> simp [Select.byPieces]

theorem head_countPieces {keyword : String} (n : Option UInt64) :
    ∀ piece ∈ (Select.countPieces keyword n).head?, piece = .keyword keyword := by
  cases n <;> simp [Select.countPieces]

theorem atBoundary_closing (s : Select) : atBoundary [] s.closing = true := by
  cases hc : s.closing with
  | nil => rfl
  | cons t ts =>
    have ht : t.text = ";" := s.closing_head t (by rw [hc]; exact rfl)
    rw [atBoundary, Token.isChar, ht]
    rfl

/-- The statement behind SELECT is read back. -/
theorem selectStatement_of_writes (s : Select) {select : Token} {ts : List Token}
    (hw : Writes s.pieces (select :: ts)) : selectStatement ts = .ok s.query := by
  obtain ⟨opening, behindItems, he, hopening, hbehindItems⟩ := writes_append hw
  obtain ⟨first, items, rfl, -, hitems⟩ := writes_cons hopening
  obtain ⟨-, rfl⟩ := List.cons.inj he
  obtain ⟨tables, behindTables, rfl, htables, hbehindTables⟩ := writes_append hbehindItems
  obtain ⟨fromWord, sources, rfl, hfrom, hsources⟩ := writes_cons htables
  obtain ⟨joins, behindJoins, rfl, hjoins, hbehindJoins⟩ := writes_append hbehindTables
  obtain ⟨tests, behindTests, rfl, htests, hbehindTests⟩ := writes_append hbehindJoins
  obtain ⟨groups, behindGroups, rfl, hgroups, hbehindGroups⟩ := writes_append hbehindTests
  obtain ⟨bounds, behindHaving, rfl, hbounds, hbehindHaving⟩ := writes_append hbehindGroups
  obtain ⟨orders, behindOrders, rfl, horders, hbehindOrders⟩ := writes_append hbehindHaving
  obtain ⟨limits, behindLimit, rfl, hlimits, hbehindLimit⟩ := writes_append hbehindOrders
  obtain ⟨offsets, closing, rfl, hoffsets, hclosing⟩ := writes_append hbehindLimit
  obtain rfl := writes_tokens hclosing
  -- Each clause, written or not, ends the one before it, from the last one on.
  have atOffset := atBoundary_of_writes (head_countPieces _) hoffsets (atBoundary_closing s)
  have atLimit := atBoundary_of_writes (head_countPieces _) hlimits atOffset
  have atOrder := atBoundary_of_writes (head_byPieces _) horders atLimit
  have atHaving := atBoundary_of_writes (head_testPieces _) hbounds atOrder
  have atGroup := atBoundary_of_writes (head_byPieces _) hgroups atHaving
  have atWhere := atBoundary_of_writes (head_testPieces _) htests atGroup
  obtain ⟨readJoins, atJoins⟩ := joinClauses_of_writes s.joins hjoins atWhere
  have readTables := tableRefs_of_writes (s.first :: s.others) hsources
    (atBoundary_mono (by decide) atJoins)
  have readTests := conditionClause_of_writes (by decide : ∀ stop ∈ whereStop, stop ∈ reserved)
    (by decide) s.tests htests (atBoundary_mono (by decide) atGroup)
  have readGroups := groupByClause_of_writes s.groupBy hgroups atHaving
  have readBounds := conditionClause_of_writes (by decide : ∀ stop ∈ havingStop, stop ∈ reserved)
    (by decide) s.having hbounds atOrder
  have readOrders := orderByClause_of_writes s.orderBy horders atLimit
  have readLimit := countClause_of_writes (by decide) s.limit hlimits atOffset
  have readOffset := countClause_of_writes (by decide) s.offset hoffsets (atBoundary_closing s)
  show selectStatement (items ++ (fromWord :: sources ++ _)) = _
  rw [List.cons_append, selectStatement, selectList_of_writes s.items hitems ⟨_, _, rfl, hfrom⟩]
  simp only [bind, Except.bind, afterWord?_of_isWord hfrom, readTables, List.map_cons,
    List.isEmpty_cons, Bool.false_eq_true, if_false, pure, Except.pure, readJoins, whereClause,
    readTests, readGroups, havingClause, readBounds, readOrders, readLimit, readOffset]
  simp only [Select.query, Select.refs, List.map_cons, List.map_map, List.filterMap_map]
  rfl

theorem ofTokens_of_writes (s : Select) {ts : List Token} (hw : Writes s.pieces ts) :
    Query.ofTokens ts = s.query := by
  cases ts with
  | nil => cases hw
  | cons first ts =>
    obtain ⟨t, us, he, ht, -⟩ := writes_cons hw
    obtain ⟨rfl, rfl⟩ := List.cons.inj he
    have hselect : StatementKind.ofWord first.text = .select := StatementKind.ofWord_select ht
    rw [Query.ofTokens, statement, hselect]
    simp only [selectStatement_of_writes s hw]

/-! ### Printing -/

/-- The token that writes a piece with its keyword in capitals. -/
def Piece.token : Piece → Token
  | .keyword word => ⟨word⟩
  | .exact text => ⟨text⟩

theorem Piece.isWrittenAs_token (piece : Piece) : piece.IsWrittenAs piece.token := by
  cases piece with
  | keyword word => exact Text.sameWord_refl word
  | exact text => rfl

theorem writes_map_token : ∀ pieces : List Piece, Writes pieces (pieces.map Piece.token)
  | [] => .nil
  | piece :: pieces => .cons piece.isWrittenAs_token (writes_map_token pieces)

/-- A SELECT as a text, with a space behind each token. -/
def Select.print (s : Select) : String :=
  String.ofList ((s.pieces.map fun piece => piece.token.text.toList).flatMap (· ++ [' ']))

end Sql

namespace Query

/-- A text that lays out the tokens of a SELECT, with its keywords in capitals, is read back. -/
theorem ofText_layout (s : Sql.Select) {cs : List Char}
    (h : Sql.LaysOut (s.pieces.map fun piece => piece.token.text.toList) cs) :
    ofText (String.ofList cs) = s.query := by
  have hw := Sql.writes_map_token s.pieces
  have hlays : Sql.LaysOut ((s.pieces.map Sql.Piece.token).map fun t => t.text.toList) cs := by
    rwa [List.map_map]
  have htokens := Sql.tokenize_of_laysOut .nil hlays (Sql.Select.isLexeme_of_writes hw)
  exact (congrArg ofTokens htokens).trans (Sql.ofTokens_of_writes s hw)

/-- A SELECT that is printed is read back. -/
theorem ofText_print (s : Sql.Select) : ofText s.print = s.query :=
  ofText_layout s (Sql.LaysOut.spaced _)

/-- A text that lays out what is written for a SELECT is read as the statement that the SELECT
stands for. -/
theorem ofText_of_laysOut (s : Sql.Select) {ts : List Sql.Token} (hw : Sql.Writes s.pieces ts)
    {gap cs : List Char} (hgap : Sql.IsGap gap)
    (h : Sql.LaysOut (ts.map fun t => t.text.toList) cs) :
    ofText (String.ofList (gap ++ cs)) = s.query := by
  have hlexemes := Sql.Select.isLexeme_of_writes hw
  rw [ofText, Sql.tokenize_of_laysOut hgap h hlexemes]
  exact Sql.ofTokens_of_writes s hw

end Query

namespace Sql
namespace Sample

/-- How many orders each user has, apart from small ones. -/
def orderCounts : Select where
  items := [.column ⟨"u.name", by decide, by decide⟩,
    .call .count ⟨"*", by decide, by decide⟩ (some ⟨"n", by decide, by decide⟩)]
  first := ⟨⟨"users", by decide, by decide⟩, some ⟨false, "u", by decide, by decide⟩⟩
  others := []
  joins := [⟨.ofKind .left true,
    ⟨⟨"orders", by decide, by decide⟩, some ⟨true, "o", by decide, by decide⟩⟩,
    ⟨"u.id", by decide, by decide⟩, ⟨"=", by decide, by decide⟩,
    ⟨"o.user_id", by decide, by decide⟩⟩]
  tests := some (.more
    (.compare ⟨"amount", by decide, by decide⟩ .greaterEq (.whole 10 (by decide))) .and
    (.last (.inList ⟨"item", by decide, by decide⟩ [⟨"ink"⟩, ⟨"pen"⟩]
      (List.forall_mem_cons.mpr
        ⟨.inl (by decide), List.forall_mem_singleton.mpr (.inl (by decide))⟩)
      (by decide))))
  groupBy := [⟨"u.name", by decide, by decide⟩]
  having := none
  orderBy := [⟨⟨"n", by decide, by decide⟩, some .desc⟩]
  limit := some 5
  offset := none
  closing := []
  closing_isLexeme := List.forall_mem_nil _
  closing_head := by decide

/-- The tokens of a text that writes it. -/
def orderCountsTokens : List Token :=
  ["Select", "u.name", ",", "count", "(", "*", ")", "as", "n", "from", "users", "u", "left",
    "outer", "join", "orders", "AS", "o", "on", "u.id", "=", "o.user_id", "where", "amount", ">=",
    "10", "and", "item", "in", "(", "ink", "pen", ")", "group", "by", "u.name", "order", "by", "n",
    "desc", "limit", "5"].map Token.mk

end Sample
end Sql

theorem Query.ofText_orderCounts :
    Sql.Writes Sql.Sample.orderCounts.pieces Sql.Sample.orderCountsTokens ∧
      Query.ofText ("Select u.name , count ( * ) as n from users u left outer join orders AS o " ++
        "on u.id = o.user_id where amount >= 10 and item in ( ink pen ) group by u.name " ++
        "order by n desc limit 5 ") = Sql.Sample.orderCounts.query := by
  have hw : Sql.Writes Sql.Sample.orderCounts.pieces Sql.Sample.orderCountsTokens := by
    decide +kernel
  have hread := Query.ofText_of_laysOut Sql.Sample.orderCounts hw .nil (.spaced _)
  refine ⟨hw, (congrArg Query.ofText ?_).trans hread⟩
  decide +kernel

end DocumentSql
