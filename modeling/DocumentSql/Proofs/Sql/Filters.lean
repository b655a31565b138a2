/-
# What becomes of the tokens of WHERE and HAVING

The tokens that are read as conditions spell these conditions one after the
other (`Sql.Spells`): column, operator, value and the word that joins the
condition to the next. Every token up to the end of the clause is spelled out
like that, with one exception: where the statement ends behind the column or
the operator of a condition, these one or two tokens are dropped without an
error (`Sql.ReadsConditions.brokenOff`). In any other case a WHERE clause with
a token in it gives a condition.

Key definitions: `Sql.Spells`, `Sql.ReadsConditions`, `Sql.AtWhere`.
Key theorems: `Sql.readsConditions_of_ok`, `Query.filters_spelled`.
-/
import DocumentSql.Proofs.Sql.Clauses
import DocumentSql.Proofs.Sql.Statement

namespace DocumentSql
namespace Sql

/-! ### Tokens up to a close -/

/-- What stands before the close has matching parentheses. -/
theorem exists_close_of_untilClose : ∀ {ts inner rest : List Token} {depth : Nat},
    untilClose depth ts = some (inner, rest) →
      ∃ close, close.isChar ')' = true ∧ ts = inner ++ close :: rest ∧
        depthBehind depth inner = some 0
  | [], _, _, _, h => nomatch h
  | t :: ts, inner, rest, depth, h => by
    unfold untilClose at h
    split at h
    · rename_i hclose
      cases depth with
      | zero =>
        obtain ⟨rfl, rfl⟩ := Prod.mk.inj (Option.some.inj h)
        exact ⟨t, hclose, rfl, rfl⟩
      | succ depth =>
        obtain ⟨⟨more, behind⟩, hmore, he⟩ := Option.map_eq_some_iff.mp h
        obtain ⟨rfl, rfl⟩ := Prod.mk.inj he
        obtain ⟨close, hc, rfl, hdepth⟩ := exists_close_of_untilClose hmore
        exact ⟨close, hc, rfl, by simp [depthBehind, hclose, hdepth]⟩
    · rename_i hclose
      obtain ⟨⟨more, behind⟩, hmore, he⟩ := Option.map_eq_some_iff.mp h
      obtain ⟨rfl, rfl⟩ := Prod.mk.inj he
      obtain ⟨close, hc, rfl, hdepth⟩ := exists_close_of_untilClose hmore
      exact ⟨close, hc, rfl, by simp [depthBehind, hclose, hdepth]⟩

/-! ### The tokens that spell conditions -/

/-- Tokens that spell the value behind an operator: one token, or behind IN a list in
parentheses. -/
inductive SpellsValue (comparison : Comparison) : Scalar → List Token → Prop
  | token (t : Token) (single : ¬(comparison = .inList ∧ t.isChar '(' = true)) :
      SpellsValue comparison t.scalar [t]
  | list (opening close : Token) (inner : List Token) (isIn : comparison = .inList)
      (opens : opening.isChar '(' = true) (matched : depthBehind 0 inner = some 0)
      (closes : close.isChar ')' = true) :
      SpellsValue comparison (.text (joinTexts inner)) (opening :: (inner ++ [close]))

/-- Tokens that spell the word between two conditions. -/
inductive SpellsConnector : Option Connector → List Token → Prop
  | absent : SpellsConnector none []
  | word (t : Token) (c : Connector) (names : Connector.ofWord? t.text = some c) :
      SpellsConnector (some c) [t]

/-- Tokens that spell conditions, one after the other. -/
inductive Spells : List Condition → List Token → Prop
  | nil : Spells [] []
  | cons {column operator : Token} {v : Scalar} {value word rest : List Token}
      {c : Option Connector} {more : List Condition}
      (spellsValue : SpellsValue (Comparison.ofOperator operator.text) v value)
      (spellsConnector : SpellsConnector c word) (spellsMore : Spells more rest) :
      Spells (⟨column.text, Comparison.ofOperator operator.text, v, c⟩ :: more)
        (column :: operator :: (value ++ word ++ rest))

theorem spells_nil {ts : List Token} (h : Spells [] ts) : ts = [] := by
  cases h
  rfl

/-- The value that is read is spelled by the tokens in front of what is left. -/
theorem spellsValue_of_ok {comparison : Comparison} {t : Token} {ts behind : List Token}
    {v : Scalar} (h : conditionValue comparison t ts = .ok (v, behind)) :
    ∃ value, SpellsValue comparison v value ∧ t :: ts = value ++ behind := by
  unfold conditionValue at h
  split at h
  · rename_i hlist
    rw [Bool.and_eq_true, decide_eq_true_iff] at hlist
    split at h
    · cases h
    · rename_i inner rest huntil
      obtain ⟨rfl, rfl⟩ := Prod.mk.inj (Except.ok.inj h)
      obtain ⟨close, hclose, rfl, hdepth⟩ := exists_close_of_untilClose huntil
      exact ⟨_, .list t close inner hlist.1 hlist.2 hdepth hclose, by simp⟩
  · rename_i hlist
    rw [Bool.and_eq_true, decide_eq_true_iff] at hlist
    obtain ⟨rfl, rfl⟩ := Prod.mk.inj (Except.ok.inj h)
    exact ⟨[t], .token t hlist, rfl⟩

/-- So is the connector. -/
theorem exists_spellsConnector (ts : List Token) :
    ∃ word, SpellsConnector (connector ts).1 word ∧ ts = word ++ (connector ts).2 := by
  unfold connector
  split
  · exact ⟨[], .absent, rfl⟩
  · split
    · rename_i t rest _ c hc
      exact ⟨[t], .word t c hc, rfl⟩
    · exact ⟨[], .absent, rfl⟩

/-! ### The tokens of a clause -/

/-- What is read as conditions from `ts`, and the tokens behind them: all the tokens up to the end
of the clause spell conditions, unless the tokens end within a condition. -/
inductive ReadsConditions (stops : List String) (ts : List Token) :
    List Condition → List Token → Prop
  | complete {cs : List Condition} {spelled behind : List Token} (split : ts = spelled ++ behind)
      (spells : Spells cs spelled) (boundary : atBoundary stops behind = true) :
      ReadsConditions stops ts cs behind
  | brokenOff {cs : List Condition} {spelled dropped : List Token}
      (split : ts = spelled ++ dropped) (spells : Spells cs spelled)
      (inside : atBoundary stops dropped = false) (short : dropped.length ≤ 2) :
      ReadsConditions stops ts cs []

/-- A further condition in front. -/
theorem ReadsConditions.cons {stops : List String} {column operator : Token} {v : Scalar}
    {value word ts behind : List Token} {c : Option Connector} {more : List Condition}
    (hvalue : SpellsValue (Comparison.ofOperator operator.text) v value)
    (hword : SpellsConnector c word) (h : ReadsConditions stops ts more behind) :
    ReadsConditions stops (column :: operator :: (value ++ word ++ ts))
      (⟨column.text, Comparison.ofOperator operator.text, v, c⟩ :: more) behind := by
  cases h with
  | complete split spells boundary =>
    exact .complete (by simp [split]) (.cons hvalue hword spells) boundary
  | brokenOff split spells inside short =>
    exact .brokenOff (by simp [split]) (.cons hvalue hword spells) inside short

theorem readsConditions_of_ok {stops : List String} {ts behind : List Token}
    {cs : List Condition} (h : conditions stops ts = .ok (cs, behind)) :
    ReadsConditions stops ts cs behind := by
  -- along the recursion of `conditions`: boundary, a value that fails, a condition, a broken one
  fun_induction conditions stops ts generalizing cs behind with
  | case1 ts hstop =>
    obtain ⟨rfl, rfl⟩ := Prod.mk.inj (Except.ok.inj h)
    exact .complete (List.nil_append ts).symm .nil hstop
  | case2 => cases h
  | case3 column operator value rest v behindValue hvalue _ ih =>
    cases hmore : conditions stops (connector behindValue).2 with
    | error e => rw [hmore] at h; cases h
    | ok reading =>
      rw [hmore] at h
      obtain ⟨rfl, rfl⟩ := Prod.mk.inj (Except.ok.inj h)
      obtain ⟨spelledValue, hspells, hsplit⟩ := spellsValue_of_ok hvalue
      obtain ⟨word, hword, hbehind⟩ := exists_spellsConnector behindValue
      have htokens : value :: rest = spelledValue ++ word ++ (connector behindValue).2 := by
        rw [hsplit, List.append_assoc, ← hbehind]
      rw [htokens]
      exact (ih hmore).cons hspells hword
  | case4 ts hstop hshort =>
    obtain ⟨rfl, rfl⟩ := Prod.mk.inj (Except.ok.inj h)
    refine .brokenOff (List.nil_append ts).symm .nil (by simpa using hstop) ?_
    match ts, hshort with
    | [], _ | [_], _ | [_, _], _ => simp
    | column :: operator :: value :: rest, hshort =>
      exact absurd rfl (hshort column operator value rest)

/-- Conditions that are begun with a whole one are not left out. -/
theorem ReadsConditions.ne_nil {stops : List String} {ts behind : List Token}
    {cs : List Condition} (h : ReadsConditions stops ts cs behind)
    (hstop : atBoundary stops ts = false) (hlong : 3 ≤ ts.length) : cs ≠ [] := by
  rintro rfl
  cases h with
  | complete split spells boundary =>
    rw [split, spells_nil spells, List.nil_append, boundary] at hstop
    cases hstop
  | brokenOff split spells _ short =>
    rw [split, spells_nil spells, List.nil_append] at hlong
    omega

/-- What is read from `ts` as the filter behind `keyword`, if it is there. -/
inductive ReadsFilter (keyword : String) (stops : List String) (ts : List Token) :
    List Condition → List Token → Prop
  | absent (absent : afterWord? keyword ts = none) : ReadsFilter keyword stops ts [] ts
  | present {cs : List Condition} {filter behind : List Token}
      (present : afterWord? keyword ts = some filter)
      (reads : ReadsConditions stops filter cs behind) : ReadsFilter keyword stops ts cs behind

theorem readsFilter_of_ok {keyword : String} {stops : List String} {ts behind : List Token}
    {cs : List Condition} (h : conditionClause keyword stops ts = .ok (cs, behind)) :
    ReadsFilter keyword stops ts cs behind := by
  unfold conditionClause at h
  split at h
  · rename_i habsent
    obtain ⟨rfl, rfl⟩ := Prod.mk.inj (Except.ok.inj h)
    exact .absent habsent
  · rename_i filter hpresent
    exact .present hpresent (readsConditions_of_ok h)

theorem ReadsFilter.ne_nil {keyword : String} {stops : List String} {ts filter behind : List Token}
    {cs : List Condition} (h : ReadsFilter keyword stops ts cs behind)
    (hfilter : afterWord? keyword ts = some filter) (hstop : atBoundary stops filter = false)
    (hlong : 3 ≤ filter.length) : cs ≠ [] := by
  cases h with
  | absent habsent => rw [habsent] at hfilter; cases hfilter
  | present hpresent reads =>
    obtain rfl := Option.some.inj (hpresent.symm.trans hfilter)
    exact reads.ne_nil hstop hlong

/-! ### The clauses of a statement -/

/-- The tokens of a statement from where its WHERE would stand. -/
inductive AtWhere : List Token → List Token → Prop
  | select {first : Token} {ts behindItems behindFrom behindRefs behind : List Token}
      {items : List SelectItem} {refs : List TableRef} {joins : List Join}
      (word : StatementKind.ofWord first.text = .select)
      (readsItems : selectList ts = .ok (items, behindItems))
      (isFrom : afterWord? "FROM" behindItems = some behindFrom)
      (readsRefs : tableRefs behindFrom = .ok (refs, behindRefs))
      (readsJoins : joinClauses behindRefs = .ok (joins, behind)) : AtWhere (first :: ts) behind
  | update {first table : Token} {ts assignments : List Token}
      (word : StatementKind.ofWord first.text = .update)
      (isSet : afterWord? "SET" ts = some assignments) :
      AtWhere (first :: table :: ts) (assignments.dropWhile (!·.isWord "WHERE"))
  | delete {first table : Token} {ts behind : List Token}
      (word : StatementKind.ofWord first.text = .delete)
      (isFrom : afterWord? "FROM" ts = some (table :: behind)) : AtWhere (first :: ts) behind

/-- How the filters of a statement are read from where WHERE would stand: WHERE, and in a SELECT
HAVING behind GROUP BY. -/
inductive ReadsFilters (atWhere : List Token) (q : Query) : Prop
  | select {behindWhere behindGroup behind : List Token} (kind : q.kind = .select)
      (readsWhere : ReadsFilter "WHERE" whereStop atWhere q.conditions behindWhere)
      (readsGroup : groupByClause behindWhere = .ok (q.groupBy, behindGroup))
      (readsHaving : ReadsFilter "HAVING" havingStop behindGroup q.having behind) :
      ReadsFilters atWhere q
  | change {behind : List Token} (kind : q.kind = .update ∨ q.kind = .delete)
      (readsWhere : ReadsFilter "WHERE" whereStop atWhere q.conditions behind)
      (noHaving : q.having = []) : ReadsFilters atWhere q

theorem ReadsFilters.conditions_ne_nil {atWhere filter : List Token} {q : Query}
    (h : ReadsFilters atWhere q) (hfilter : afterWord? "WHERE" atWhere = some filter)
    (hstop : atBoundary whereStop filter = false) (hlong : 3 ≤ filter.length) :
    q.conditions ≠ [] := by
  cases h with
  | select _ readsWhere | change _ readsWhere => exact readsWhere.ne_nil hfilter hstop hlong

theorem readsFilters_select {first : Token} {ts : List Token} {q : Query}
    (word : StatementKind.ofWord first.text = .select) (h : selectStatement ts = .ok q) :
    ∃ atWhere, AtWhere (first :: ts) atWhere ∧ ReadsFilters atWhere q := by
  obtain ⟨r⟩ := selectStatement_eq_ok h
  exact ⟨_, .select word r.items_eq r.from_eq r.refs_eq r.joins_eq,
    .select r.kind (readsFilter_of_ok r.where_eq) r.groupBy_eq (readsFilter_of_ok r.having_eq)⟩

theorem readsFilters_update {first : Token} {ts : List Token} {q : Query}
    (word : StatementKind.ofWord first.text = .update) (h : updateStatement ts = .ok q) :
    ∃ atWhere, AtWhere (first :: ts) atWhere ∧ ReadsFilters atWhere q := by
  obtain ⟨_, _, _, _, _, rfl, hset, hwhere, rfl⟩ := updateStatement_eq_ok h
  exact ⟨_, .update word hset, .change (.inl rfl) (readsFilter_of_ok hwhere) rfl⟩

theorem readsFilters_delete {first : Token} {ts : List Token} {q : Query}
    (word : StatementKind.ofWord first.text = .delete) (h : deleteStatement ts = .ok q) :
    ∃ atWhere, AtWhere (first :: ts) atWhere ∧ ReadsFilters atWhere q := by
  obtain ⟨_, _, _, _, hfrom, hwhere, rfl⟩ := deleteStatement_eq_ok h
  exact ⟨_, .delete word hfrom, .change (.inr rfl) (readsFilter_of_ok hwhere) rfl⟩

end Sql

namespace Query

theorem readsFilters {ts : List Sql.Token} (hv : (ofTokens ts).isValid = true)
    (hk : (ofTokens ts).kind ∈ [StatementKind.select, .update, .delete]) :
    ∃ atWhere, Sql.AtWhere ts atWhere ∧ Sql.ReadsFilters atWhere (ofTokens ts) := by
  obtain ⟨first, rest, hts, hs⟩ := exists_statement hv
  generalize ofTokens ts = q at hs hk ⊢
  subst hts
  rcases Sql.statement_eq_ok hs with ⟨hw, h⟩ | ⟨-, h⟩ | ⟨hw, h⟩ | ⟨hw, h⟩
  · exact Sql.readsFilters_select hw h
  · obtain ⟨_, _, rfl⟩ := Sql.insertStatement_eq_ok h
    simp at hk
  · exact Sql.readsFilters_update hw h
  · exact Sql.readsFilters_delete hw h

/-- Every token of the filters of a valid statement is spelled out, up to one or two tokens at the
end of the statement, and a WHERE that begins with a whole condition gives a condition. -/
theorem filters_spelled {ts : List Sql.Token} (hv : (ofTokens ts).isValid = true)
    (hk : (ofTokens ts).kind ∈ [StatementKind.select, .update, .delete]) :
    ∃ atWhere, Sql.AtWhere ts atWhere ∧ Sql.ReadsFilters atWhere (ofTokens ts) ∧
      ∀ filter, Sql.afterWord? "WHERE" atWhere = some filter →
        Sql.atBoundary Sql.whereStop filter = false → 3 ≤ filter.length →
          (ofTokens ts).conditions ≠ [] := by
  obtain ⟨atWhere, hat, hreads⟩ := readsFilters hv hk
  exact ⟨atWhere, hat, hreads, fun _ => hreads.conditions_ne_nil⟩

/-- A WHERE with a list, and a HAVING that breaks off. -/
def brokenHaving : List Sql.Token :=
  ["SELECT", "name", "FROM", "users", "WHERE", "id", "IN", "(", "1", ",", "(", "2", ")", ")", "AND",
    "age", ">", "3", "GROUP", "BY", "name", "HAVING", "name", ">"].map (⟨·⟩)

theorem filters_spelled_brokenHaving :
    (ofTokens brokenHaving).isValid = true ∧
      (ofTokens brokenHaving).kind ∈ [StatementKind.select, .update, .delete] ∧
      (ofTokens brokenHaving).conditions =
        [⟨"id", .inList, .text "1,(2)", some .and⟩, ⟨"age", .greater, .int 3, none⟩] ∧
      (ofTokens brokenHaving).having = [] ∧
      ∃ atWhere, Sql.AtWhere brokenHaving atWhere ∧
        Sql.ReadsFilters atWhere (ofTokens brokenHaving) ∧
        ∀ filter, Sql.afterWord? "WHERE" atWhere = some filter →
          Sql.atBoundary Sql.whereStop filter = false → 3 ≤ filter.length →
            (ofTokens brokenHaving).conditions ≠ [] := by
  have hv : (ofTokens brokenHaving).isValid = true := by decide +kernel
  have hk : (ofTokens brokenHaving).kind ∈ [StatementKind.select, .update, .delete] := by
    decide +kernel
  exact ⟨hv, hk, by decide +kernel, by decide +kernel, filters_spelled hv hk⟩

/-- A filter of one token, such as one whose operator has no blanks around it, is dropped: the
statement is valid, and the same as without it. So is what follows a whole condition. -/
theorem filter_dropped_gluedOperator :
    Sql.tokenize "SELECT name FROM users WHERE id=1" =
        Sql.tokenize "SELECT name FROM users WHERE" ++ [⟨"id=1"⟩] ∧
      Sql.atBoundary Sql.whereStop [⟨"id=1"⟩] = false ∧
      (ofText "SELECT name FROM users WHERE id=1").isValid = true ∧
      ofText "SELECT name FROM users WHERE id=1" = ofText "SELECT name FROM users" ∧
      (ofText "DELETE FROM users WHERE id = 1 AND age >").isValid = true ∧
      (ofText "DELETE FROM users WHERE id = 1 AND age >").conditions =
        [⟨"id", .eq, .int 1, some .and⟩] := by
  decide +kernel

end Query
end DocumentSql
