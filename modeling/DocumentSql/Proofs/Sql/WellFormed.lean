/-
# Statements are well formed

A statement is read from any tokens at all: keywords may stand where names are
expected, clauses may break off, and punctuation may stand anywhere. What comes
out fits together nevertheless (`Query.isWellFormed_ofTokens`). Tokens that are
no statement give a message and nothing else. A SELECT names each of its tables
once, the first table of FROM before all others; joins and aliases refer to these
tables, so that no look-up behind the parser can miss; and its aggregates are
items of the select list, in the order of the list. The other statements have one
table and none of the clauses that only a SELECT has.

Key definitions: `Sql.firstTable?`, `Query.IsBlank`, `Query.IsSelectFrom`,
`Query.IsChange`, `Query.IsWellFormed`.
Key theorem: `Query.isWellFormed_ofTokens`.
-/
import DocumentSql.Proofs.Sql.Statement

namespace DocumentSql
namespace Sql

/-- The first table of the FROM clause of a SELECT: the token behind the FROM that ends the select
list, any commas left out. -/
def firstTable? : List Token → Option Token
  | [] => none
  | _ :: ts =>
    match selectList ts with
    | .ok (_, _ :: behindFrom) => (behindFrom.dropWhile (·.isChar ',')).head?
    | _ => none

/-- The first table that is read is the first token, any commas left out. -/
theorem head?_of_tableRefs {ref : TableRef} {refs : List TableRef} {behind : List Token} :
    ∀ {ts : List Token}, tableRefs ts = .ok (ref :: refs, behind) →
      (ts.dropWhile (·.isChar ',')).head?.map Token.text = some ref.table
  | [], h => by
    rw [tableRefs] at h
    cases h
  | t :: ts, h => by
    rw [tableRefs] at h
    split at h
    · cases h
    split at h
    · rename_i hcomma
      rw [List.dropWhile_cons, if_pos hcomma]
      exact head?_of_tableRefs h
    · rename_i hcomma
      rw [List.dropWhile_cons, if_neg hcomma]
      split at h
      · cases h
      · rename_i aliasName afterAlias _
        cases hrefs : tableRefs afterAlias with
        | error e =>
          rw [hrefs] at h
          cases h
        | ok reading =>
          rw [hrefs] at h
          obtain ⟨href, -⟩ := List.cons.inj (Prod.mk.inj (Except.ok.inj h)).1
          rw [← href]
          rfl

/-- The aggregates of a select list are among its items, in order. -/
theorem sublist_outputNames : ∀ items : List SelectItem,
    ((items.filterMap (·.aggregate?)).map Aggregate.outputName).Sublist
      (items.map (·.outputName))
  | [] => .slnil
  | .column _ :: items => (sublist_outputNames items).cons _
  | .call _ :: items => (sublist_outputNames items).cons_cons _

namespace SelectReading

variable {first : Token} {ts : List Token} {q : Query}

theorem firstTable?_eq (r : SelectReading ts q) :
    (firstTable? (first :: ts)).map Token.text = q.tables.head? := by
  obtain ⟨ref, refs, hrefs⟩ := List.exists_cons_of_ne_nil r.refs_ne_nil
  have hbehind : ∃ fromWord, r.behindItems = fromWord :: r.behindFrom := by
    have hfrom := r.from_eq
    cases hitems : r.behindItems with
    | nil =>
      rw [hitems] at hfrom
      cases hfrom
    | cons t rest =>
      rw [hitems, afterWord?] at hfrom
      split at hfrom
      · exact ⟨t, by rw [Option.some.inj hfrom]⟩
      · cases hfrom
  obtain ⟨fromWord, hbehind⟩ := hbehind
  have hread := r.refs_eq
  rw [hrefs] at hread
  rw [r.tables, head?_distinct, hrefs, List.map_cons, List.cons_append, List.head?_cons,
    ← head?_of_tableRefs hread, firstTable?, r.items_eq, hbehind]

/-- A FROM between brackets does not end the select list. -/
example : (firstTable? (tokenize "SELECT COUNT(FROM) FROM , , users u, rooms")).map Token.text =
    some "users" := by decide +kernel

end SelectReading
end Sql

namespace Query

/-- No clause of the statement says anything. -/
structure IsBlank (q : Query) : Prop where
  tables : q.tables = []
  columns : q.columns = []
  conditions : q.conditions = []
  joins : q.joins = []
  orderBy : q.orderBy = []
  groupBy : q.groupBy = []
  having : q.having = []
  limit : q.limit = none
  offset : q.offset = none
  aggregates : q.aggregates = []
  aliases : q.aliases = .empty

theorem isBlank_invalid (kind : StatementKind) (message : String) :
    (invalid kind message).IsBlank :=
  ⟨rfl, rfl, rfl, rfl, rfl, rfl, rfl, rfl, rfl, rfl, rfl⟩

/-- The clauses of a SELECT that is read from `ts` fit together. -/
structure IsSelectFrom (ts : List Sql.Token) (q : Query) : Prop where
  tables_ne_nil : q.tables ≠ []
  nodup_tables : q.tables.Nodup
  head?_tables : q.tables.head? = (Sql.firstTable? ts).map Sql.Token.text
  joined_mem : ∀ j ∈ q.joins, j.table ∈ q.tables
  aliased_mem : ∀ aliasName table, q.aliases.get? aliasName = some table → table ∈ q.tables
  /-- The alias of a join stands for a table, if only for one that has the same alias. -/
  joinAlias_mem : ∀ j ∈ q.joins, ∀ aliasName, j.aliasName = some aliasName →
    aliasName ∈ q.aliases.keys
  aggregates_sublist : (q.aggregates.map Aggregate.outputName).Sublist q.columns

/-- The statement names one table and has no clause that only a SELECT has. -/
structure IsChange (q : Query) : Prop where
  tables : ∃ table, q.tables = [table]
  joins : q.joins = []
  aliases : q.aliases = .empty
  aggregates : q.aggregates = []
  groupBy : q.groupBy = []
  having : q.having = []
  orderBy : q.orderBy = []
  limit : q.limit = none
  offset : q.offset = none

/-- What holds of every statement that is read from `ts`. -/
structure IsWellFormed (ts : List Sql.Token) (q : Query) : Prop where
  isValid_iff : q.isValid = false ↔ q.error ≠ none
  blank : q.isValid = false → q.IsBlank
  kind_ne : q.isValid = true → q.kind ≠ .unknown
  select : q.isValid = true → q.kind = .select → q.IsSelectFrom ts
  change : q.isValid = true → q.kind ∈ [StatementKind.insert, .update, .delete] → q.IsChange
  insert : q.isValid = true → q.kind = .insert → q.conditions = []
  filter : q.isValid = true → q.kind ∈ [StatementKind.update, .delete] → q.columns = []

theorem isWellFormed_invalid (ts : List Sql.Token) (kind : StatementKind) (message : String) :
    (invalid kind message).IsWellFormed ts := by
  have hinvalid : (invalid kind message).isValid ≠ true := Bool.false_ne_true
  exact {
    isValid_iff := ⟨fun _ => Option.some_ne_none message, fun _ => rfl⟩
    blank := fun _ => isBlank_invalid kind message
    kind_ne := fun h => absurd h hinvalid
    select := fun h => absurd h hinvalid
    change := fun h => absurd h hinvalid
    insert := fun h => absurd h hinvalid
    filter := fun h => absurd h hinvalid }

end Query

/-! ### Each kind of statement -/

namespace Sql

variable {first : Token} {ts : List Token} {q : Query}

theorem SelectReading.isSelectFrom (r : SelectReading ts q) : q.IsSelectFrom (first :: ts) where
  tables_ne_nil := r.tables_ne_nil
  nodup_tables := r.tables ▸ nodup_distinct _
  head?_tables := r.firstTable?_eq.symm
  joined_mem _ hj := r.joined_mem_tables hj
  aliased_mem _ _ h := r.mem_tables_of_alias h
  joinAlias_mem _ hj _ ha := r.mem_keys_of_join hj ha
  aggregates_sublist := by
    rw [r.aggregates, r.columns]
    exact sublist_outputNames r.items

theorem isWellFormed_select (h : selectStatement ts = .ok q) : q.IsWellFormed (first :: ts) := by
  obtain ⟨r⟩ := selectStatement_eq_ok h
  have hkind := r.kind
  exact {
    isValid_iff := by simp [r.isValid, r.error]
    blank := by simp [r.isValid]
    kind_ne := by simp [hkind]
    select := fun _ _ => r.isSelectFrom
    change := by simp [hkind]
    insert := by simp [hkind]
    filter := by simp [hkind] }

theorem isWellFormed_insert (h : insertStatement ts = .ok q) : q.IsWellFormed (first :: ts) := by
  obtain ⟨table, columns, rfl⟩ := insertStatement_eq_ok h
  exact {
    isValid_iff := by simp
    blank := by simp
    kind_ne := by simp
    select := by simp
    change := fun _ _ => ⟨⟨table, rfl⟩, rfl, rfl, rfl, rfl, rfl, rfl, rfl, rfl⟩
    insert := fun _ _ => rfl
    filter := by simp }

/-- An UPDATE and a DELETE hold one table and conditions. -/
theorem isWellFormed_filtered {kind : StatementKind} (hkind : kind = .update ∨ kind = .delete)
    (table : String) (conditions : List Condition) :
    ({ kind, tables := [table], conditions } : Query).IsWellFormed (first :: ts) where
  isValid_iff := by simp
  blank := by simp
  kind_ne := by rcases hkind with rfl | rfl <;> simp
  select := by rcases hkind with rfl | rfl <;> simp
  change _ _ := ⟨⟨table, rfl⟩, rfl, rfl, rfl, rfl, rfl, rfl, rfl, rfl⟩
  insert := by rcases hkind with rfl | rfl <;> simp
  filter _ _ := rfl

end Sql

namespace Query

/-- **Every statement is well formed**, whatever tokens it is read from. -/
theorem isWellFormed_ofTokens (ts : List Sql.Token) : (ofTokens ts).IsWellFormed ts := by
  rcases ofTokens_cases ts with ⟨kind, message, h⟩ | ⟨first, rest, hts, hs⟩
  · rw [h]
    exact isWellFormed_invalid ts kind message
  · generalize ofTokens ts = q at hs ⊢
    subst hts
    rcases Sql.statement_eq_ok hs with ⟨-, h⟩ | ⟨-, h⟩ | ⟨-, h⟩ | ⟨-, h⟩
    · exact Sql.isWellFormed_select h
    · exact Sql.isWellFormed_insert h
    · obtain ⟨table, _, _, conditions, _, -, -, -, rfl⟩ := Sql.updateStatement_eq_ok h
      exact Sql.isWellFormed_filtered (.inl rfl) table.text conditions
    · obtain ⟨table, _, conditions, _, -, -, rfl⟩ := Sql.deleteStatement_eq_ok h
      exact Sql.isWellFormed_filtered (.inr rfl) table.text conditions

end Query
end DocumentSql
