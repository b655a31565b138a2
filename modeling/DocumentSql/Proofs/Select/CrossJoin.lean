/-
# Tables separated by commas

`FROM users, orders` asks for every user with every order, which is not offered.
The reader keeps of the tables that FROM lists each one once, and no join. The
check refuses a table behind the first one that no join brings in, so it refuses
the statement as soon as two of the tables differ
(`crossJoined?_eq_none_iff_of_selects`, `isRefusal_of_selects`).

It does not see a table that is listed twice. `FROM users a, users b` comes to
the check as a statement on `users` alone, and is run as one
(`execute_usersTwice`).

Key definitions: `Sql.SpellsRefs`, `Sql.SelectsFrom`.
Key theorems: `Sql.tableRefs_of_spells`, `Query.tables_of_selects`,
`crossJoined?_eq_none_iff_of_selects`, `isRefusal_of_selects`.
-/
import DocumentSql.Proofs.Select.Supported
import DocumentSql.Proofs.Sql.Distinct
import DocumentSql.Proofs.Sql.FromClause

namespace DocumentSql
namespace Sql

/-! ### The tokens of a list of tables -/

/-- The token can name a table: it neither ends the list nor separates two tables. -/
structure Token.NamesTable (t : Token) : Prop where
  goesOn : atBoundary fromStop [t] = false
  noComma : t.isChar ',' = false

/-- Tokens that spell a table, with or without an alias. -/
inductive SpellsRef : TableRef → List Token → Prop
  | bare {t : Token} (names : t.NamesTable) : SpellsRef ⟨t.text, none⟩ [t]
  | named {t a : Token} (names : t.NamesTable) (namesAlias : a.NamesTable)
      (noAs : a.isWord "AS" = false) : SpellsRef ⟨t.text, some a.text⟩ [t, a]
  | announced {t as a : Token} (names : t.NamesTable) (isAs : as.isWord "AS" = true) :
      SpellsRef ⟨t.text, some a.text⟩ [t, as, a]

/-- Tokens that spell tables, with a comma between each two. -/
inductive SpellsRefs : List TableRef → List Token → Prop
  | one {ref : TableRef} {ts : List Token} (spells : SpellsRef ref ts) : SpellsRefs [ref] ts
  | cons {ref : TableRef} {refs : List TableRef} {comma : Token} {ts rest : List Token}
      (spells : SpellsRef ref ts) (isComma : comma.text = ",") (spellsRest : SpellsRefs refs rest) :
      SpellsRefs (ref :: refs) (ts ++ comma :: rest)

theorem SpellsRef.exists_tableAlias {ref : TableRef} {ts rest : List Token}
    (h : SpellsRef ref ts) (hrest : Separates (atBoundary fromStop · = true) rest) :
    ∃ t us, ts = t :: us ∧ t.NamesTable ∧ t.text = ref.table ∧
      tableAlias (us ++ rest) = .ok (ref.aliasName, rest) := by
  cases h with
  | @bare t names => exact ⟨t, [], rfl, names, rfl, tableAlias_of_separates hrest⟩
  | @named t a names namesAlias noAs =>
    refine ⟨t, [a], rfl, names, rfl, ?_⟩
    have has : afterWord? "AS" (a :: rest) = none := afterWord?_of_isWord_eq_false noAs rest
    have hstop : (atBoundary fromStop (a :: rest) || a.isChar ',') = false := by
      rw [namesAlias.noComma, Bool.or_false]
      exact namesAlias.goesOn
    simp only [List.singleton_append, tableAlias, has, hstop, Bool.false_eq_true, if_false]
  | @announced t as a names isAs =>
    refine ⟨t, [as, a], rfl, names, rfl, ?_⟩
    have hafter := afterWord?_of_isWord isAs (a :: rest)
    simp only [List.cons_append, List.nil_append, tableAlias, hafter]

theorem SpellsRef.tableRefs_append {ref : TableRef} {ts rest : List Token}
    (h : SpellsRef ref ts) (hrest : Separates (atBoundary fromStop · = true) rest) :
    tableRefs (ts ++ rest) =
      (tableRefs rest).map fun (refs, behind) => (ref :: refs, behind) := by
  obtain ⟨t, us, rfl, names, htable, halias⟩ := h.exists_tableAlias hrest
  have hstop : atBoundary fromStop (t :: (us ++ rest)) = false := names.goesOn
  rw [List.cons_append, tableRefs_cons hstop names.noComma halias, htable]

theorem tableRefs_of_spells {refs : List TableRef} {ts rest : List Token}
    (h : SpellsRefs refs ts) (hrest : atBoundary fromStop rest = true) :
    tableRefs (ts ++ rest) = .ok (refs, rest) := by
  induction h with
  | one spells => rw [spells.tableRefs_append (.inl hrest), tableRefs_of_atBoundary hrest]; rfl
  | @cons ref refs comma ts more spells isComma _ ih =>
    have hcomma : Separates (atBoundary fromStop · = true) (comma :: (more ++ rest)) :=
      .inr ⟨comma, _, rfl, isComma⟩
    rw [List.append_assoc, List.cons_append, spells.tableRefs_append hcomma,
      tableRefs_comma isComma, ih]
    rfl

/-- The tokens are a SELECT whose FROM lists these tables, with commas and without a join. -/
inductive SelectsFrom (refs : List TableRef) : List Token → Prop
  | intro {first fromWord : Token} {ts clause rest : List Token} {items : List SelectItem}
      (isSelect : first.isWord "SELECT" = true)
      (readsItems : selectList ts = .ok (items, fromWord :: (clause ++ rest)))
      (spells : SpellsRefs refs clause) (ends : atBoundary fromStop rest = true)
      (noJoin : ∀ t ∈ rest.head?, t.isAnyWord joinStart = false) :
      SelectsFrom refs (first :: ts)

end Sql

open Sql (TableRef SelectsFrom)

variable {refs : List TableRef} {ts : List Sql.Token}

/-! ### What is read and what is refused -/

/-- Of the tables that are listed each is kept once, and nothing is joined. -/
theorem Query.tables_of_selects (h : SelectsFrom refs ts) (hv : (ofTokens ts).isValid = true)
    (hk : (ofTokens ts).kind = .select) :
    (ofTokens ts).tables = Sql.distinct (refs.map (·.table)) ∧ (ofTokens ts).joins = [] := by
  obtain ⟨first, rest, rfl, ⟨r⟩⟩ := exists_selectReading hv hk
  obtain ⟨-, readsItems, spells, ends, noJoin⟩ := h
  have hitems := r.items_eq
  rw [readsItems] at hitems
  obtain ⟨-, hbehind⟩ := Prod.mk.inj (Except.ok.inj hitems)
  have hfrom := r.from_eq
  rw [← hbehind, Sql.afterWord?] at hfrom
  split at hfrom
  · have hrefs := r.refs_eq
    rw [← Option.some.inj hfrom, Sql.tableRefs_of_spells spells ends] at hrefs
    obtain ⟨hrefs, hbehindRefs⟩ := Prod.mk.inj (Except.ok.inj hrefs)
    have hjoins := r.joins_eq
    rw [← hbehindRefs, Sql.joinClauses_of_head? noJoin] at hjoins
    obtain ⟨hjoins, -⟩ := Prod.mk.inj (Except.ok.inj hjoins)
    refine ⟨?_, hjoins.symm⟩
    rw [r.tables, ← hrefs, ← hjoins, List.map_nil, List.append_nil]
  · cases hfrom

theorem crossJoined?_eq_none_iff_of_selects (h : SelectsFrom refs ts)
    (hv : (Query.ofTokens ts).isValid = true) (hk : (Query.ofTokens ts).kind = .select) :
    crossJoined? (Query.ofTokens ts).tables (Query.ofTokens ts).joins = none ↔
      ∀ r ∈ refs, ∀ r' ∈ refs, r.table = r'.table := by
  obtain ⟨htables, hjoins⟩ := Query.tables_of_selects h hv hk
  have hmem : ∀ {t}, t ∈ (Query.ofTokens ts).tables ↔ ∃ r ∈ refs, r.table = t := by
    intro t
    rw [htables, Sql.mem_distinct, List.mem_map]
  have hnodup : (Query.ofTokens ts).tables.Nodup := htables ▸ Sql.nodup_distinct _
  rw [crossJoined?_eq_none_iff, hjoins]
  obtain ⟨base, others, hcons⟩ := List.exists_cons_of_ne_nil (Query.tables_ne_nil hv hk)
  rw [hcons] at hmem hnodup ⊢
  rw [List.tail_cons]
  constructor
  · intro hothers r hr r' hr'
    have hone : ∀ r ∈ refs, r.table = base := by
      intro r hr
      refine (List.mem_cons.mp (hmem.mpr ⟨r, hr, rfl⟩)).resolve_right fun ht => ?_
      exact absurd (hothers _ ht) List.not_mem_nil
    rw [hone r hr, hone r' hr']
  · intro hsame t ht
    obtain ⟨r, hr, hbase⟩ := hmem.mp List.mem_cons_self
    obtain ⟨r', hr', htable⟩ := hmem.mp (List.mem_cons_of_mem base ht)
    have heq : t = base := by rw [← htable, ← hbase, hsame r' hr' r hr]
    exact absurd (heq ▸ ht) (List.nodup_cons.mp hnodup).1

/-- **Different tables separated by commas are refused.** A SELECT whose FROM lists tables with
commas and without a join, not all of them the same one, is answered with an error that refuses it,
never with rows, whatever the schema and the store. -/
theorem isRefusal_of_selects (h : SelectsFrom refs ts)
    (hne : ∃ r ∈ refs, ∃ r' ∈ refs, r.table ≠ r'.table) (schema : ProjectSchema) (fetch : Fetch)
    (rowCap : Nat) :
    ∃ e, execute (.ofTokens ts) schema fetch rowCap = .error e ∧ e.IsRefusal := by
  cases hp : Plan.ofQuery (.ofTokens ts) schema with
  | error e =>
    refine ⟨e, ?_, Plan.isRefusal_of_ofQuery hp⟩
    simp only [execute, hp, bind, Except.bind]
  | ok p =>
    have haccepts := Plan.ofQuery_eq_ok_iff.mp hp
    have hsame := (crossJoined?_eq_none_iff_of_selects h haccepts.valid haccepts.kind).mp
      haccepts.closed
    obtain ⟨r, hr, r', hr', hne⟩ := hne
    exact absurd (hsame r hr r' hr') hne

namespace Sample

/-- Two tables, and one table twice. -/
def usersAndOrders : List Sql.Token :=
  [⟨"SELECT"⟩, ⟨"u.name"⟩, ⟨"FROM"⟩, ⟨"users"⟩, ⟨"u"⟩, ⟨","⟩, ⟨"orders"⟩]

def usersTwice : List Sql.Token :=
  [⟨"SELECT"⟩, ⟨"u.name"⟩, ⟨"FROM"⟩, ⟨"users"⟩, ⟨"u"⟩, ⟨","⟩, ⟨"users"⟩, ⟨"AS"⟩, ⟨"v"⟩]

theorem isRefusal_usersAndOrders :
    SelectsFrom [⟨"users", some "u"⟩, ⟨"orders", none⟩] usersAndOrders ∧
      Sql.tokenize "SELECT u.name FROM users u, orders" = usersAndOrders ∧
      (∃ e, execute (.ofTokens usersAndOrders) schema shop.fetch 2 = .error e ∧ e.IsRefusal) ∧
      execute (.ofTokens usersAndOrders) schema shop.fetch 2 =
        .error (.unsupported (.crossJoin "orders")) := by
  have hclause : Sql.SpellsRefs [⟨"users", some "u"⟩, ⟨"orders", none⟩]
      ([⟨"users"⟩, ⟨"u"⟩] ++ ⟨","⟩ :: [⟨"orders"⟩]) :=
    .cons (.named ⟨by decide, by decide⟩ ⟨by decide, by decide⟩ (by decide)) rfl
      (.one (.bare ⟨by decide, by decide⟩))
  have hitems : Sql.selectList usersAndOrders.tail = .ok ([.column "u.name"],
      ⟨"FROM"⟩ :: (([⟨"users"⟩, ⟨"u"⟩] ++ ⟨","⟩ :: [⟨"orders"⟩]) ++ [])) := by decide +kernel
  have hselects : SelectsFrom [⟨"users", some "u"⟩, ⟨"orders", none⟩] usersAndOrders :=
    .intro (by decide) hitems hclause rfl (by decide)
  refine ⟨hselects, by decide +kernel, ?_, by decide +kernel⟩
  exact isRefusal_of_selects hselects ⟨_, List.mem_cons_self, _,
    List.mem_cons_of_mem _ List.mem_cons_self, by decide⟩ schema shop.fetch 2

/-- A table that is listed twice passes for one, and the statement is run on it alone. -/
theorem execute_usersTwice :
    SelectsFrom [⟨"users", some "u"⟩, ⟨"users", some "v"⟩] usersTwice ∧
      Sql.tokenize "SELECT u.name FROM users u, users AS v" = usersTwice ∧
      execute (.ofTokens usersTwice) schema shop.fetch 2 =
        .ok [.ofList [("u.name", .text "Ann")], .ofList [("u.name", .null)]] := by
  have hclause : Sql.SpellsRefs [⟨"users", some "u"⟩, ⟨"users", some "v"⟩]
      ([⟨"users"⟩, ⟨"u"⟩] ++ ⟨","⟩ :: [⟨"users"⟩, ⟨"AS"⟩, ⟨"v"⟩]) :=
    .cons (.named ⟨by decide, by decide⟩ ⟨by decide, by decide⟩ (by decide)) rfl
      (.one (.announced ⟨by decide, by decide⟩ (by decide)))
  have hitems : Sql.selectList usersTwice.tail = .ok ([.column "u.name"],
      ⟨"FROM"⟩ :: (([⟨"users"⟩, ⟨"u"⟩] ++ ⟨","⟩ :: [⟨"users"⟩, ⟨"AS"⟩, ⟨"v"⟩]) ++ [])) := by
    decide +kernel
  exact ⟨.intro (by decide) hitems hclause rfl (by decide), by decide +kernel, by decide +kernel⟩

end Sample
end DocumentSql
