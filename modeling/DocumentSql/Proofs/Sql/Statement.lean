/-
# What a statement is read from, and the tables and aliases of a SELECT

A SELECT is read clause by clause (`Sql.SelectReading`). It names each of its
tables once, those of FROM before those of the joins, and its aliases are those
of FROM and of the joins, written one after the other. So a joined table is one
of the query's tables, and its alias stands for it unless another table has the
same alias.

Key definition: `Sql.SelectReading`.
Key theorems: `Sql.selectStatement_eq_ok`, `Sql.statement_eq_ok`,
`Query.exists_selectReading`, `Sql.SelectReading.mem_tables_of_alias`,
`Sql.SelectReading.get?_aliases_of_join`.
-/
import DocumentSql.Proofs.OrderedMap
import DocumentSql.Proofs.Sql.Distinct

namespace DocumentSql
namespace Sql

/-- How the clauses of a SELECT are read from `ts`, each behind the one before it. -/
structure SelectReading (ts : List Token) (q : Query) where
  items : List SelectItem
  refs : List TableRef
  behindItems : List Token
  behindFrom : List Token
  behindRefs : List Token
  behindJoins : List Token
  behindWhere : List Token
  behindGroup : List Token
  behindHaving : List Token
  behindOrder : List Token
  items_eq : selectList ts = .ok (items, behindItems)
  from_eq : afterWord? "FROM" behindItems = some behindFrom
  refs_eq : tableRefs behindFrom = .ok (refs, behindRefs)
  refs_ne_nil : refs ≠ []
  joins_eq : joinClauses behindRefs = .ok (q.joins, behindJoins)
  where_eq : whereClause behindJoins = .ok (q.conditions, behindWhere)
  groupBy_eq : groupByClause behindWhere = .ok (q.groupBy, behindGroup)
  having_eq : havingClause behindGroup = .ok (q.having, behindHaving)
  orderBy_eq : orderByClause behindHaving = .ok (q.orderBy, behindOrder)
  kind : q.kind = .select
  isValid : q.isValid = true
  error : q.error = none
  tables : q.tables = distinct (refs.map (·.table) ++ q.joins.map (·.table))
  columns : q.columns = items.map (·.outputName)
  aggregates : q.aggregates = items.filterMap (·.aggregate?)
  aliases : q.aliases = aliasMap refs q.joins

/-- A SELECT is read clause by clause. -/
theorem selectStatement_eq_ok {ts : List Token} {q : Query} (h : selectStatement ts = .ok q) :
    Nonempty (SelectReading ts q) := by
  unfold selectStatement at h
  simp only [bind, Except.bind, pure, Except.pure, throw, throwThe, MonadExceptOf.throw] at h
  -- every clause that fails gives an error, so each `split` leaves the case where it is read
  split at h
  · cases h
  rename_i items hitems
  split at h
  · cases h
  rename_i afterFrom hfrom
  split at h
  · cases h
  rename_i refs hrefs
  split at h
  · cases h
  rename_i hne
  split at h
  · cases h
  rename_i joins hjoins
  split at h
  · cases h
  rename_i conditions hconditions
  split at h
  · cases h
  rename_i groupBy hgroupBy
  split at h
  · cases h
  rename_i having hhaving
  split at h
  · cases h
  rename_i orderBy horderBy
  obtain rfl := Except.ok.inj h
  exact ⟨{
    items := items.1
    refs := refs.1
    behindItems := items.2
    behindFrom := afterFrom
    behindRefs := refs.2
    behindJoins := joins.2
    behindWhere := conditions.2
    behindGroup := groupBy.2
    behindHaving := having.2
    behindOrder := orderBy.2
    items_eq := hitems
    from_eq := hfrom
    refs_eq := hrefs
    refs_ne_nil := by simpa using hne
    joins_eq := hjoins
    where_eq := hconditions
    groupBy_eq := hgroupBy
    having_eq := hhaving
    orderBy_eq := horderBy
    kind := rfl
    isValid := rfl
    error := rfl
    tables := rfl
    columns := rfl
    aggregates := rfl
    aliases := rfl }⟩

namespace SelectReading

variable {ts : List Token} {q : Query}

/-- A SELECT names a table. -/
theorem tables_ne_nil (r : SelectReading ts q) : q.tables ≠ [] := by
  obtain ⟨ref, hmem⟩ := List.exists_mem_of_ne_nil _ r.refs_ne_nil
  refine List.ne_nil_of_mem (a := ref.table) ?_
  rw [r.tables, mem_distinct]
  exact List.mem_append_left _ (List.mem_map_of_mem hmem)

/-- A joined table is a table of the query. -/
theorem joined_mem_tables (r : SelectReading ts q) {j : Join} (hj : j ∈ q.joins) :
    j.table ∈ q.tables := by
  rw [r.tables, mem_distinct]
  exact List.mem_append_right _ (List.mem_map_of_mem hj)

/-- An alias stands for a table of the query. -/
theorem mem_tables_of_alias (r : SelectReading ts q) {aliasName table : String}
    (h : q.aliases.get? aliasName = some table) : table ∈ q.tables := by
  rw [r.aliases, aliasMap] at h
  rcases OrderedMap.get?_insertAll_eq_some _ h with hm | hm
  · rw [r.tables, mem_distinct, List.mem_append, List.mem_map, List.mem_map]
    refine (List.mem_append.mp hm).imp (fun hm => ?_) fun hm => ?_
    · obtain ⟨ref, href, he⟩ := List.mem_filterMap.mp hm
      obtain ⟨_, -, he⟩ := Option.map_eq_some_iff.mp he
      exact ⟨ref, href, (Prod.mk.inj he).2⟩
    · obtain ⟨j, hj, he⟩ := List.mem_filterMap.mp hm
      obtain ⟨_, -, he⟩ := Option.map_eq_some_iff.mp he
      exact ⟨j, hj, (Prod.mk.inj he).2⟩
  · rw [OrderedMap.get?_empty] at hm
    cases hm

theorem mem_aliases_of_join {j : Join} (hj : j ∈ q.joins) {aliasName : String}
    (ha : j.aliasName = some aliasName) :
    (aliasName, j.table) ∈ q.joins.filterMap fun j => j.aliasName.map (·, j.table) :=
  List.mem_filterMap.mpr ⟨j, hj, by rw [ha]; rfl⟩

/-- The alias of a join is one of the query's aliases. -/
theorem mem_keys_of_join (r : SelectReading ts q) {j : Join} (hj : j ∈ q.joins)
    {aliasName : String} (ha : j.aliasName = some aliasName) : aliasName ∈ q.aliases.keys := by
  rw [r.aliases, aliasMap, OrderedMap.keys_ofList, mem_distinct, List.map_append]
  exact List.mem_append_right _ (List.mem_map_of_mem (mem_aliases_of_join hj ha))

/-- The alias of a joined table stands for it if no other join has that alias. -/
theorem get?_aliases_of_join (r : SelectReading ts q)
    (hn : (q.joins.filterMap (·.aliasName)).Nodup) {j : Join} (hj : j ∈ q.joins)
    {aliasName : String} (ha : j.aliasName = some aliasName) :
    q.aliases.get? aliasName = some j.table := by
  have hkeys : (q.joins.filterMap fun j => j.aliasName.map (·, j.table)).map Prod.fst =
      q.joins.filterMap (·.aliasName) := by
    rw [List.map_filterMap]
    refine congrArg (List.filterMap · q.joins) (funext fun j => ?_)
    cases j.aliasName <;> rfl
  have hmem := mem_aliases_of_join hj ha
  rw [r.aliases, aliasMap, OrderedMap.ofList, OrderedMap.insertAll_append]
  refine OrderedMap.get?_insertAll_of_forall _ _ (List.mem_map.mpr ⟨_, hmem, rfl⟩) ?_
  rintro ⟨key, table⟩ he rfl
  have hfind := Entries.find?_of_mem (hkeys ▸ hn) he
  rw [Entries.find?_of_mem (hkeys ▸ hn) hmem] at hfind
  exact (Option.some.inj hfind).symm

end SelectReading

/-- An INSERT holds a table and columns. -/
theorem insertStatement_eq_ok {ts : List Token} {q : Query} (h : insertStatement ts = .ok q) :
    ∃ table columns, q = { kind := .insert, tables := [table], columns } := by
  unfold insertStatement at h
  split at h
  · cases h
  · cases h
  · exact ⟨_, _, (Except.ok.inj h).symm⟩

/-- An UPDATE holds a table, and the conditions behind its assignments. -/
theorem updateStatement_eq_ok {ts : List Token} {q : Query} (h : updateStatement ts = .ok q) :
    ∃ table rest assignments conditions behind, ts = table :: rest ∧
      afterWord? "SET" rest = some assignments ∧
      whereClause (assignments.dropWhile (!·.isWord "WHERE")) = .ok (conditions, behind) ∧
      q = { kind := .update, tables := [table.text], conditions } := by
  unfold updateStatement at h
  split at h
  · cases h
  · split at h
    · cases h
    · rename_i hset
      simp only [bind, Except.bind, pure, Except.pure] at h
      split at h
      · cases h
      · rename_i hwhere
        exact ⟨_, _, _, _, _, rfl, hset, hwhere, (Except.ok.inj h).symm⟩

/-- A DELETE holds a table and conditions. -/
theorem deleteStatement_eq_ok {ts : List Token} {q : Query} (h : deleteStatement ts = .ok q) :
    ∃ table rest conditions behind, afterWord? "FROM" ts = some (table :: rest) ∧
      whereClause rest = .ok (conditions, behind) ∧
      q = { kind := .delete, tables := [table.text], conditions } := by
  unfold deleteStatement at h
  split at h
  · cases h
  · cases h
  · rename_i hfrom
    simp only [bind, Except.bind, pure, Except.pure] at h
    split at h
    · cases h
    · rename_i hwhere
      exact ⟨_, _, _, _, hfrom, hwhere, (Except.ok.inj h).symm⟩

/-- The first word of a statement tells how it is read. -/
theorem statement_eq_ok {first : Token} {ts : List Token} {q : Query}
    (h : statement first ts = .ok q) :
    (StatementKind.ofWord first.text = .select ∧ selectStatement ts = .ok q) ∨
      (StatementKind.ofWord first.text = .insert ∧ insertStatement ts = .ok q) ∨
        (StatementKind.ofWord first.text = .update ∧ updateStatement ts = .ok q) ∨
          (StatementKind.ofWord first.text = .delete ∧ deleteStatement ts = .ok q) := by
  unfold statement at h
  split at h
  · exact .inl ⟨‹_›, h⟩
  · exact .inr (.inl ⟨‹_›, h⟩)
  · exact .inr (.inr (.inl ⟨‹_›, h⟩))
  · exact .inr (.inr (.inr ⟨‹_›, h⟩))
  · cases h

end Sql

namespace Query

/-- Tokens are no statement, or read as one from their first word. -/
theorem ofTokens_cases (ts : List Sql.Token) :
    (∃ kind message, ofTokens ts = invalid kind message) ∨
      ∃ first rest, ts = first :: rest ∧ Sql.statement first rest = .ok (ofTokens ts) := by
  cases ts with
  | nil => exact .inl ⟨_, _, rfl⟩
  | cons first rest =>
    cases hs : Sql.statement first rest with
    | error e => exact .inl ⟨_, _, by rw [ofTokens, hs]⟩
    | ok q => exact .inr ⟨first, rest, rfl, by rw [ofTokens, hs]⟩

theorem exists_statement {ts : List Sql.Token} (hv : (ofTokens ts).isValid = true) :
    ∃ first rest, ts = first :: rest ∧ Sql.statement first rest = .ok (ofTokens ts) := by
  refine (ofTokens_cases ts).resolve_left ?_
  rintro ⟨kind, message, h⟩
  rw [h] at hv
  cases hv

/-- A valid SELECT was read clause by clause, from what stands behind its first word. -/
theorem exists_selectReading {ts : List Sql.Token} (hv : (ofTokens ts).isValid = true)
    (hk : (ofTokens ts).kind = .select) :
    ∃ first rest, ts = first :: rest ∧ Nonempty (Sql.SelectReading rest (ofTokens ts)) := by
  obtain ⟨first, rest, hts, hs⟩ := exists_statement hv
  refine ⟨first, rest, hts, ?_⟩
  rcases Sql.statement_eq_ok hs with ⟨-, h⟩ | ⟨-, h⟩ | ⟨-, h⟩ | ⟨-, h⟩
  · exact Sql.selectStatement_eq_ok h
  · obtain ⟨_, _, hq⟩ := Sql.insertStatement_eq_ok h
    rw [hq] at hk
    cases hk
  · obtain ⟨_, _, _, _, _, -, -, -, hq⟩ := Sql.updateStatement_eq_ok h
    rw [hq] at hk
    cases hk
  · obtain ⟨_, _, _, _, -, -, hq⟩ := Sql.deleteStatement_eq_ok h
    rw [hq] at hk
    cases hk

section Select

variable {ts : List Sql.Token} (hv : (ofTokens ts).isValid = true)
  (hk : (ofTokens ts).kind = .select)

include hv hk

theorem tables_ne_nil : (ofTokens ts).tables ≠ [] := by
  obtain ⟨_, _, -, ⟨reading⟩⟩ := exists_selectReading hv hk
  exact reading.tables_ne_nil

theorem joined_mem_tables {j : Join} (hj : j ∈ (ofTokens ts).joins) :
    j.table ∈ (ofTokens ts).tables := by
  obtain ⟨_, _, -, ⟨reading⟩⟩ := exists_selectReading hv hk
  exact reading.joined_mem_tables hj

theorem mem_tables_of_alias {aliasName table : String}
    (h : (ofTokens ts).aliases.get? aliasName = some table) : table ∈ (ofTokens ts).tables := by
  obtain ⟨_, _, -, ⟨reading⟩⟩ := exists_selectReading hv hk
  exact reading.mem_tables_of_alias h

theorem get?_aliases_of_join (hn : ((ofTokens ts).joins.filterMap (·.aliasName)).Nodup) {j : Join}
    (hj : j ∈ (ofTokens ts).joins) {aliasName : String} (ha : j.aliasName = some aliasName) :
    (ofTokens ts).aliases.get? aliasName = some j.table := by
  obtain ⟨_, _, -, ⟨reading⟩⟩ := exists_selectReading hv hk
  exact reading.get?_aliases_of_join hn hj ha

end Select

end Query
end DocumentSql
