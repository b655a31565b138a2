/-
# The select list and the aggregates find the same columns

The select list looks a reference up by what stands behind its first dot, and
takes a bare name from the first joined table of the query that has it. Grouping
and aggregates look by what stands behind the last dot, and take the first key of
the row that ends in it. With one table in FROM the keys of a merged row are in
the order of the joins, so a bare name is the same column to both
(`Plan.Accepts.lookupLenient?_bare`); and behind a table part a column without
dots is found by both or by grouping alone (`Scope.lookupLenient?_qualified`).

The two cuts differ where a reference has two table parts. The key that
`u.orders.id` leaves behind its first dot is one that a join has made, and the
select list shows the `id` of `orders`; the name behind the last dot is `id`, and
aggregates read that of `users`. This happens behind a part that names the base
table, and nowhere else (`Plan.lookupLenient?_of_lookup?`).

Key definitions: `Sql.SelectsFromOne`, `Plan.IsTwiceQualified`.
Key theorems: `Plan.Accepts.tail_tables_eq`, `Plan.Accepts.lookupLenient?_bare`,
`Plan.lookupLenient?_of_lookup?`.
-/
import DocumentSql.Proofs.Select.LenientLookup

namespace DocumentSql

namespace Column

theorem bareName_of_isDotFree {text : String} (h : IsDotFree text) : bareName text = text := by
  have hrev : ∀ c ∈ text.toList.reverse, (c != '.') = true := by
    intro c hc
    rw [bne_iff_ne]
    rintro rfl
    exact h (List.mem_reverse.mp hc)
  rw [bareName, afterLastDot, List.takeWhile_eq_self_iff.mpr hrev, List.reverse_reverse,
    String.ofList_toList]

theorem bareName_qualified_qualified {column : String} (h : IsDotFree column)
    (name table : String) : bareName (qualified name (qualified table column)) = column := by
  have hassoc : qualified name (qualified table column) =
      qualified (qualified name table) column := by
    rw [← String.toList_inj]
    simp [toList_qualified]
  rw [hassoc, bareName_qualified h]

end Column

namespace Sql

/-- The tokens are a SELECT whose FROM lists one table. -/
inductive SelectsFromOne : List Token → Prop
  | intro {first : Token} {ts behindItems behindFrom behind : List Token}
      {items : List SelectItem} {ref : TableRef}
      (readsItems : selectList ts = .ok (items, behindItems))
      (isFrom : afterWord? "FROM" behindItems = some behindFrom)
      (readsRefs : tableRefs behindFrom = .ok ([ref], behind)) : SelectsFromOne (first :: ts)

theorem SelectsFromOne.exists_tables_eq {ts : List Token} (h : SelectsFromOne ts)
    (hv : (Query.ofTokens ts).isValid = true) (hk : (Query.ofTokens ts).kind = .select) :
    ∃ base, (Query.ofTokens ts).tables =
      distinct (base :: (Query.ofTokens ts).joins.map (·.table)) := by
  obtain ⟨first, rest, rfl, ⟨r⟩⟩ := Query.exists_selectReading hv hk
  obtain @⟨_, _, _, _, _, _, ref, readsItems, isFrom, readsRefs⟩ := h
  have hitems := r.items_eq
  rw [readsItems] at hitems
  obtain ⟨-, hbehind⟩ := Prod.mk.inj (Except.ok.inj hitems)
  have hfrom := r.from_eq
  rw [← hbehind, isFrom] at hfrom
  have hrefs := r.refs_eq
  rw [← Option.some.inj hfrom, readsRefs] at hrefs
  obtain ⟨hrefs, -⟩ := Prod.mk.inj (Except.ok.inj hrefs)
  refine ⟨ref.table, ?_⟩
  rw [r.tables, ← hrefs]
  rfl

end Sql

namespace Tuple.IsApart

variable {p : Plan} {base : String} {d : Document} {rest : Tuple}

theorem get?_mergedRow_of_not_isDotFree (h : IsApart base d rest)
    (hcols : ∀ table, ∀ c ∈ p.columnsOf table, Column.IsDotFree c) {table column : String}
    (ht : Column.IsDotFree table) (hc : ¬ Column.IsDotFree column) :
    (p.mergedRow ((base, d) :: rest)).get? (Column.qualified table column) = none := by
  rw [h.get?_mergedRow_qualified p ht]
  exact listedCell?_of_not_listed fun hm => hc (hcols table column hm)

theorem exists_of_get?_mergedRow (h : IsApart base d rest) {key : String} {v : Scalar}
    (hv : (p.mergedRow ((base, d) :: rest)).get? key = some v) (hk : ¬ Column.IsDotFree key) :
    ∃ e ∈ rest, ∃ column ∈ p.columnsOf e.1,
      key = Column.qualified e.1 column ∧ v = e.2.data.cell column := by
  obtain ⟨parts, hs⟩ := Option.ne_none_iff_exists'.mp
    (mt (Column.splitDot_eq_none_iff key.toList).mp hk)
  obtain ⟨hkey, htable⟩ := Column.eq_append_of_splitDot hs
  have htable : Column.IsDotFree (String.ofList parts.1) := by simpa [Column.IsDotFree] using htable
  have hkey : key = Column.qualified (String.ofList parts.1) (String.ofList parts.2) := by
    rw [← String.toList_inj, Column.toList_qualified, hkey]
    simp
  rw [hkey, h.get?_mergedRow_qualified p htable, listedCell?] at hv
  split at hv
  · rename_i hlisted
    obtain ⟨e, he, rfl⟩ := Option.map_eq_some_iff.mp hv
    exact ⟨(_, e), Entries.mem_of_find? he, _, hlisted, hkey, rfl⟩
  · cases hv

end Tuple.IsApart

namespace Plan

/-- The reference has two table parts: the first names the base table, and the second a joined table
that lists the column. -/
structure IsTwiceQualified (p : Plan) (tuple : Tuple) (text table column : String) : Prop where
  exists_split : ∃ name, Column.split text = (some name, Column.qualified table column) ∧
    p.scope.tableOf name = p.scope.base
  joined : table ∈ tuple.tail.map Prod.fst
  listed : column ∈ p.columnsOf table

namespace Accepts

variable {schema : ProjectSchema} {q : Query} {p : Plan} {d : Document} {rest : Tuple}

theorem tail_tables_eq {ts : List Sql.Token} (h : Accepts (.ofTokens ts) schema p)
    (hone : Sql.SelectsFromOne ts) :
    p.scope.tables.tail = (Query.ofTokens ts).joins.map (·.table) := by
  obtain ⟨base, htables⟩ := hone.exists_tables_eq h.valid h.kind
  have hbase : p.scope.base = base := by
    rw [h.scope, Scope.base, htables, Sql.head?_distinct]
    rfl
  have hnodup : (base :: (Query.ofTokens ts).joins.map (·.table)).Nodup :=
    List.nodup_cons.mpr ⟨hbase ▸ h.base_notMem_joined, h.joined_nodup⟩
  rw [h.scope, htables, Sql.distinct_of_nodup hnodup]
  rfl

theorem lookupLenient?_bare (h : Accepts q schema p) (hd : schema.IsDotFree)
    (hapart : Tuple.IsApart p.scope.base d rest) (htail : p.scope.tables.tail = rest.map Prod.fst)
    {text : String} (ht : Column.IsDotFree text) :
    p.scope.lookupLenient? (p.mergedRow ((p.scope.base, d) :: rest)) text =
      p.scope.lookup? (p.mergedRow ((p.scope.base, d) :: rest)) text := by
  have hs := Column.split_of_isDotFree ht
  have hget := Tuple.IsApart.get?_mergedRow_of_isDotFree p p.scope.base d rest ht
  have hjoined : ∀ t ∈ p.scope.tables.tail, t ∈ rest.map Prod.fst := fun t hm => htail ▸ hm
  have hdot : ∀ t ∈ p.scope.tables.tail, Column.IsDotFree t :=
    fun t hm => h.isDotFree_table hd (h.mem_of_mem_tail hm)
  rw [hapart.lookup?_bare hs hget hdot, findSome?_listedCell? text _ hjoined]
  unfold Scope.lookupLenient? Scope.qualifiedCell?
  simp only [hget, hs, Column.bareName_of_isDotFree ht]
  cases hbase : d.data.get? text with
  | some v => rfl
  | none =>
    -- the first key that ends in the name is of the first joined table that lists it
    have hfind : (p.scope.tables.tail.find? fun t => text ∈ p.columnsOf t) =
        (rest.find? fun e => text ∈ p.columnsOf e.1).map Prod.fst := by
      rw [htail, List.find?_map]
      rfl
    simp only [Option.none_or]
    rw [hapart.suffixCell?_mergedRow (fun _ _ => h.isDotFree_column hd) ht, hfind]
    cases he : rest.find? fun e => text ∈ p.columnsOf e.1 with
    | none => exact hbase
    | some e =>
      have hlisted : text ∈ p.columnsOf e.1 := by simpa using List.find?_some he
      exact (Tuple.listedCell?_of_mem hapart.names_nodup (List.mem_of_find?_eq_some he)
        hlisted).symm

theorem isDotFree_tableOf (h : Accepts q schema p) (hd : schema.IsDotFree)
    (hmem : ∀ a t, q.aliases.get? a = some t → t ∈ q.tables) {name : String}
    (hn : Column.IsDotFree name) : Column.IsDotFree (p.scope.tableOf name) := by
  rw [h.scope]
  unfold Scope.tableOf
  cases hg : q.aliases.get? name with
  | none => exact hn
  | some table => exact h.isDotFree_table hd (hmem name table hg)

theorem exists_isTwiceQualified (h : Accepts q schema p) (hd : schema.IsDotFree)
    (hmem : ∀ a t, q.aliases.get? a = some t → t ∈ q.tables)
    (hapart : Tuple.IsApart p.scope.base d rest) {text name column : String}
    (hs : Column.split text = (some name, column)) (hc : ¬ Column.IsDotFree column) {v : Scalar}
    (hv : p.scope.lookup? (p.mergedRow ((p.scope.base, d) :: rest)) text = some v) :
    ∃ table bare, p.IsTwiceQualified ((p.scope.base, d) :: rest) text table bare := by
  have hcols : ∀ table, ∀ c ∈ p.columnsOf table, Column.IsDotFree c :=
    fun _ _ => h.isDotFree_column hd
  obtain ⟨rfl, hname, -, -⟩ := Column.split_eq_some hs
  have htable := h.isDotFree_tableOf hd hmem hname
  unfold Scope.lookup? at hv
  simp only [hs, hapart.get?_mergedRow_of_not_isDotFree hcols hname hc,
    hapart.get?_mergedRow_of_not_isDotFree hcols htable hc] at hv
  split at hv
  · rename_i hbase
    obtain ⟨e, he, bare, hlisted, rfl, -⟩ := hapart.exists_of_get?_mergedRow hv hc
    exact ⟨e.1, bare, ⟨name, hs, hbase⟩, List.mem_map_of_mem he, hlisted⟩
  · cases hv

/-- Of such a reference the select list shows the column of the joined table, and aggregates read
that of the base table's document, or else that of the first joined table that lists it. -/
theorem exists_of_isTwiceQualified (h : Accepts q schema p) (hd : schema.IsDotFree)
    (hapart : Tuple.IsApart p.scope.base d rest) {text table column : String}
    (htwice : p.IsTwiceQualified ((p.scope.base, d) :: rest) text table column) :
    ∃ e, (table, e) ∈ rest ∧
      p.scope.lookup? (p.mergedRow ((p.scope.base, d) :: rest)) text =
        some (e.data.cell column) ∧
      p.scope.lookupLenient? (p.mergedRow ((p.scope.base, d) :: rest)) text =
        (d.data.get? column).or ((rest.find? fun other => column ∈ p.columnsOf other.1).map
          fun other => other.2.data.cell column) := by
  have hcols : ∀ table, ∀ c ∈ p.columnsOf table, Column.IsDotFree c :=
    fun _ _ => h.isDotFree_column hd
  obtain ⟨⟨name, hs, hbase⟩, hjoined, hlisted⟩ := htwice
  obtain ⟨e, he, rfl⟩ := List.mem_map.mp hjoined
  have hdot : Column.IsDotFree column := hcols e.1 column hlisted
  have hkey : ¬ Column.IsDotFree (Column.qualified e.1 column) :=
    Column.not_isDotFree_qualified e.1 column
  obtain ⟨rfl, hname, -, -⟩ := Column.split_eq_some hs
  have htext := hapart.get?_mergedRow_of_not_isDotFree hcols hname hkey
  have hown := hapart.get?_mergedRow_of_not_isDotFree hcols hapart.base_dotFree hkey
  have hcell : (p.mergedRow ((p.scope.base, d) :: rest)).get? (Column.qualified e.1 column) =
      some (e.2.data.cell column) :=
    (hapart.get?_mergedRow_of_mem p he column).trans (if_pos hlisted)
  have hbare := Tuple.IsApart.get?_mergedRow_of_isDotFree p p.scope.base d rest hdot
  have hnone := hapart.get?_mergedRow_of_notMem p hapart.base_dotFree hapart.base_notMem column
  refine ⟨e.2, he, ?_, ?_⟩
  · unfold Scope.lookup?
    simp only [htext, hs, hbase, hown, if_true, hcell]
  · unfold Scope.lookupLenient? Scope.qualifiedCell?
    simp only [htext, hs, Column.bareName_qualified_qualified hdot, hbase, hnone, if_true, hbare]
    cases d.data.get? column with
    | some v => rfl
    | none =>
      simp only [Option.none_or]
      rw [hapart.suffixCell?_mergedRow hcols hdot]
      cases hfind : rest.find? fun other => column ∈ p.columnsOf other.1 with
      | some other => rfl
      | none => exact absurd hlisted (by simpa using List.find?_eq_none.mp hfind e he)

theorem lookup?_of_split_eq_none (h : Accepts q schema p) (hd : schema.IsDotFree)
    (hapart : Tuple.IsApart p.scope.base d rest) {text : String}
    (hs : Column.split text = (none, text)) (ht : ¬ Column.IsDotFree text) :
    p.scope.lookup? (p.mergedRow ((p.scope.base, d) :: rest)) text =
      (p.mergedRow ((p.scope.base, d) :: rest)).get? text := by
  have hnone : (p.scope.tables.tail.findSome? fun t =>
      (p.mergedRow ((p.scope.base, d) :: rest)).get? (Column.qualified t text)) = none := by
    rw [List.findSome?_eq_none_iff]
    intro t hm
    exact hapart.get?_mergedRow_of_not_isDotFree (fun _ _ => h.isDotFree_column hd)
      (h.isDotFree_table hd (h.mem_of_mem_tail hm)) ht
  unfold Scope.lookup?
  simp only [hs, hnone]
  cases (p.mergedRow ((p.scope.base, d) :: rest)).get? text <;> rfl

theorem lookupLenient?_eq_some (h : Accepts q schema p) (hd : schema.IsDotFree)
    (hmem : ∀ a t, q.aliases.get? a = some t → t ∈ q.tables)
    (hapart : Tuple.IsApart p.scope.base d rest) (htail : p.scope.tables.tail = rest.map Prod.fst)
    {text : String} {v : Scalar}
    (hv : p.scope.lookup? (p.mergedRow ((p.scope.base, d) :: rest)) text = some v)
    (hno : ∀ table column, ¬ p.IsTwiceQualified ((p.scope.base, d) :: rest) text table column) :
    p.scope.lookupLenient? (p.mergedRow ((p.scope.base, d) :: rest)) text = some v := by
  cases hget : (p.mergedRow ((p.scope.base, d) :: rest)).get? text with
  | some w =>
    -- a key of the row is what both look for first
    unfold Scope.lookup? at hv
    unfold Scope.lookupLenient?
    simp only [hget] at hv ⊢
    exact hv
  | none =>
    obtain ⟨name?, column, hs⟩ : ∃ name? column, Column.split text = (name?, column) :=
      ⟨_, _, rfl⟩
    cases name? with
    | some name =>
      by_cases hc : Column.IsDotFree column
      · rw [p.scope.lookupLenient?_qualified _ hs hc, hv, Option.some_or]
      · obtain ⟨table, bare, htwice⟩ := h.exists_isTwiceQualified hd hmem hapart hs hc hv
        exact absurd htwice (hno table bare)
    | none =>
      obtain rfl := Column.split_eq_none hs
      by_cases ht : Column.IsDotFree column
      · rw [h.lookupLenient?_bare hd hapart htail ht, hv]
      · rw [h.lookup?_of_split_eq_none hd hapart hs ht, hget] at hv
        cases hv

end Accepts

/-- With one table in FROM, what the select list finds in a joined row, grouping and aggregates
find as well, unless the reference names the base table and then a joined table that lists the
column. Of such a reference the select list shows the joined table's column, and the aggregates
read that of the base table's document, or else that of the first joined table that lists it. -/
theorem lookupLenient?_of_lookup? {schema : ProjectSchema} {ts : List Sql.Token} {q : Query}
    {p : Plan} (hq : Query.ofTokens ts = q) (hp : ofQuery q schema = .ok p)
    (hd : schema.IsDotFree) (hone : Sql.SelectsFromOne ts) {fetched : Fetched}
    (hkeys : ∀ d ∈ documentsOf fetched p.scope.base, ∀ key ∈ d.data.keys, Column.IsDotFree key)
    {tuple : Tuple} (ht : tuple ∈ (tuples (p.sources fetched q.joins)).filter (p.combines q.joins))
    {text : String} {v : Scalar} (hv : p.scope.lookup? (p.mergedRow tuple) text = some v) :
    ((∀ table column, ¬ p.IsTwiceQualified tuple text table column) →
      p.scope.lookupLenient? (p.mergedRow tuple) text = some v) ∧
    ∀ table column, p.IsTwiceQualified tuple text table column →
      ∃ d e, (p.scope.base, d) ∈ tuple ∧ (table, e) ∈ tuple ∧ v = e.data.cell column ∧
        p.scope.lookupLenient? (p.mergedRow tuple) text =
          (d.data.get? column).or ((tuple.tail.find? fun other =>
            column ∈ p.columnsOf other.1).map fun other => other.2.data.cell column) := by
  have h : Accepts q schema p := ofQuery_eq_ok_iff.mp hp
  subst hq
  have ht := (List.mem_filter.mp ht).1
  obtain ⟨d, rest, rfl, hnames⟩ := Accepts.exists_eq_cons ht
  have hrest := h.mem_tables_of_names hnames
  have hbase : d ∈ documentsOf fetched p.scope.base :=
    (List.forall₂_cons.mp (mem_tuples_iff.mp ht)).1.2
  have hapart := h.isApart_of_names hd (hkeys d hbase) hnames hrest
  have htail : p.scope.tables.tail = rest.map Prod.fst := by rw [h.tail_tables_eq hone, hnames]
  have hmem : ∀ a t, (Query.ofTokens ts).aliases.get? a = some t → t ∈ (Query.ofTokens ts).tables :=
    fun a t ha => Query.mem_tables_of_alias h.valid h.kind ha
  refine ⟨h.lookupLenient?_eq_some hd hmem hapart htail hv, fun table column htwice => ?_⟩
  obtain ⟨e, he, hshown, hlenient⟩ := h.exists_of_isTwiceQualified hd hapart htwice
  rw [hshown] at hv
  exact ⟨d, e, List.mem_cons_self, List.mem_cons_of_mem _ he, (Option.some.inj hv).symm, hlenient⟩

open Sample

/-- The users with the names of their orders. -/
def namedOrders : String := "SELECT u.name, o.name FROM users u JOIN orders o ON u.id = o.user_id"

theorem selectsFromOne_namedOrders : Sql.SelectsFromOne (Sql.tokenize namedOrders) := by
  have htokens : Sql.tokenize namedOrders = ⟨"SELECT"⟩ :: (Sql.tokenize namedOrders).drop 1 ∧
      Sql.selectList ((Sql.tokenize namedOrders).drop 1) =
        .ok ([.column "u.name", .column "o.name"], (Sql.tokenize namedOrders).drop 4) ∧
      Sql.afterWord? "FROM" ((Sql.tokenize namedOrders).drop 4) =
        some ((Sql.tokenize namedOrders).drop 5) ∧
      Sql.tableRefs ((Sql.tokenize namedOrders).drop 5) =
        .ok ([⟨"users", some "u"⟩], (Sql.tokenize namedOrders).drop 7) := by
    decide +kernel
  obtain ⟨htokens, hitems, hfrom, hrefs⟩ := htokens
  rw [htokens]
  exact .intro hitems hfrom hrefs

theorem accepted_namedOrders :
    ofQuery (.ofText namedOrders) schema = .ok (planOf namedOrders) ∧
      ∀ d ∈ documentsOf (fetchedOf namedOrders) (planOf namedOrders).scope.base,
        ∀ key ∈ d.data.keys, Column.IsDotFree key := by
  decide +kernel

theorem lookupLenient?_of_lookup?_namedOrders :
    ((tuplesOf namedOrders).map fun tuple => (planOf namedOrders).scope.lookup?
        ((planOf namedOrders).mergedRow tuple) "o.name") =
      [some (.text "pen"), some (.text "ink")] ∧
    ∀ tuple ∈ tuplesOf namedOrders, ∀ v,
      (planOf namedOrders).scope.lookup? ((planOf namedOrders).mergedRow tuple) "o.name" = some v →
      (planOf namedOrders).scope.lookupLenient? ((planOf namedOrders).mergedRow tuple) "o.name" =
        some v := by
  obtain ⟨hp, hkeys⟩ := accepted_namedOrders
  refine ⟨by decide +kernel, fun tuple ht v hv => ?_⟩
  have hagree := lookupLenient?_of_lookup? rfl hp schema_isDotFree selectsFromOne_namedOrders hkeys
    ht hv
  refine hagree.1 fun table column htwice => ?_
  -- the first part of `o.name` names the orders, which are joined
  obtain ⟨⟨name, hs, hbase⟩, -⟩ := htwice
  have hsplit : Column.split "o.name" = (some "o", "name") := by decide +kernel
  obtain ⟨hname, -⟩ := Prod.mk.inj (hsplit.symm.trans hs)
  have horders : (planOf namedOrders).scope.tableOf "o" ≠ (planOf namedOrders).scope.base := by
    decide +kernel
  exact horders (Option.some.inj hname ▸ hbase)

/-- Behind the users' alias a column of their orders is shown, but the least of the shown numbers is
that of a user. -/
theorem lookup?_ne_lookupLenient?_namedOrders :
    (Sql.SelectsFromOne (Sql.tokenize namedOrders) ∧
      ofQuery (.ofText namedOrders) schema = .ok (planOf namedOrders) ∧ schema.IsDotFree ∧
      ∀ d ∈ documentsOf (fetchedOf namedOrders) (planOf namedOrders).scope.base,
        ∀ key ∈ d.data.keys, Column.IsDotFree key) ∧
    ((tuplesOf namedOrders).map fun tuple =>
        ((planOf namedOrders).scope.lookup? ((planOf namedOrders).mergedRow tuple) "u.orders.id",
          (planOf namedOrders).scope.lookupLenient? ((planOf namedOrders).mergedRow tuple)
            "u.orders.id")) =
      [(some (.int 7), some (.int 1)), (some (.int 8), some (.int 2))] ∧
    execute (.ofText "SELECT u.orders.id FROM users u JOIN orders o ON u.id = o.user_id") schema
        shop.fetch 2 =
      .ok [.ofList [("u.orders.id", .int 7)], .ofList [("u.orders.id", .int 8)]] ∧
    execute (.ofText "SELECT MIN(u.orders.id) AS m FROM users u JOIN orders o ON u.id = o.user_id")
        schema shop.fetch 2 =
      .ok [.ofList [("m", .int 1)]] := by
  obtain ⟨hp, hkeys⟩ := accepted_namedOrders
  exact ⟨⟨selectsFromOne_namedOrders, hp, schema_isDotFree, hkeys⟩, by decide +kernel⟩

end Plan
end DocumentSql
