/-
# What grouping and aggregates read

Grouping and aggregates look a reference up as the select list does, and then go
on searching: for the first key that ends in the bare name
(`Scope.lookupLenient?_qualified`). In a merged row that is the column of the
first joined table that lists it (`Tuple.IsApart.suffixCell?_mergedRow`). So a
reference `p.c` reads the column `c` of the table that `p` names, with one
exception: a listed column that the base table's document lacks is taken from a
joined table, if one lists a column of this name (`Plan.readsColumn_of_split`).

Key definition: `Plan.ReadsColumn`.
Key theorems: `Scope.lookupLenient?_qualified`,
`Tuple.IsApart.suffixCell?_mergedRow`, `Plan.readsColumn_of_split`.
-/
import DocumentSql.Proofs.Select.GroupColumns
import DocumentSql.Proofs.Select.Lookup
import DocumentSql.Proofs.Sql.Statement

namespace DocumentSql
namespace Scope

/-- The search for a key that ends in a name goes over the keys of the row. -/
theorem suffixCell?_eq (row : Row) (bare : String) :
    suffixCell? row bare =
      match row.keys.find? (Column.endsIn · bare) with
      | some key => row.get? key
      | none => row.get? bare := by
  unfold suffixCell? OrderedMap.keys
  rw [List.find?_map]
  cases h : row.entries.find? ((Column.endsIn · bare) ∘ Prod.fst) with
  | none =>
    have hnone : row.entries.find? (fun e => Column.endsIn e.1 bare) = none := h
    rw [hnone, Option.map_none]
  | some e =>
    have hsome : row.entries.find? (fun e => Column.endsIn e.1 bare) = some e := h
    have hget : row.get? e.1 = some e.2 :=
      (OrderedMap.get?_eq_some_iff row e.1 e.2).mpr (List.mem_of_find?_eq_some h)
    simp only [hsome, Option.map_some, hget]

/-- With a table part, the search goes on where the look-up for the select list ends. -/
theorem lookupLenient?_qualified (s : Scope) (row : Row) {text name column : String}
    (hs : Column.split text = (some name, column)) (hc : Column.IsDotFree column) :
    s.lookupLenient? row text = (s.lookup? row text).or (suffixCell? row column) := by
  have hbare : Column.bareName text = column := by
    obtain ⟨rfl, -⟩ := Column.split_eq_some hs
    exact Column.bareName_qualified hc name
  unfold lookupLenient? lookup? qualifiedCell?
  simp only [hs, hbare]
  cases row.get? text with
  | some v => rfl
  | none =>
    cases row.get? (Column.qualified (s.tableOf name) column) with
    | some v => rfl
    | none =>
      by_cases hb : s.tableOf name = s.base
      · simp only [hb, if_true]
        cases row.get? column <;> rfl
      · simp only [hb, if_false, Option.none_or]

end Scope

/-! ### The keys of a merged row -/

theorem keys_mergeRow (table : String) (columns : List String) (left right : Row) :
    (mergeRow table columns left right).keys =
      Sql.distinct (left.keys ++ columns.map (Column.qualified table)) := by
  rw [mergeRow, OrderedMap.keys_insertAll, List.map_map]
  rfl

/-- Behind the keys of the base table come the columns of the joined tables, in order. -/
theorem Plan.keys_mergeOnto (p : Plan) (tuple : Tuple) (row : Row) :
    (p.mergeOnto row tuple).keys = Sql.distinct
      (row.keys ++ tuple.flatMap fun e => (p.columnsOf e.1).map (Column.qualified e.1)) := by
  induction tuple generalizing row with
  | nil =>
    have hkeys : row.keys.Nodup := row.nodup_keys
    rw [List.flatMap_nil, List.append_nil, Sql.distinct_of_nodup hkeys]
    rfl
  | cons e tuple ih =>
    rw [mergeOnto_cons, ih, keys_mergeRow, Sql.distinct_distinct_append, List.flatMap_cons,
      List.append_assoc]

theorem find?_map_qualified {column : String} (hc : Column.IsDotFree column) (table : String) :
    ∀ {columns : List String}, (∀ c ∈ columns, Column.IsDotFree c) →
      (columns.map (Column.qualified table)).find? (Column.endsIn · column) =
        if column ∈ columns then some (Column.qualified table column) else none
  | [], _ => rfl
  | c :: columns, h => by
    rw [List.forall_mem_cons] at h
    rw [List.map_cons, List.find?_cons, find?_map_qualified hc table h.2]
    by_cases hcc : c = column
    · subst hcc
      simp [(Column.endsIn_qualified hc hc table).mpr rfl]
    · have hnot : Column.endsIn (Column.qualified table c) column = false := by
        rw [Bool.eq_false_iff, Ne, Column.endsIn_qualified h.1 hc]
        exact hcc
      simp [hnot, Ne.symm hcc]

/-- The first key of joined tables that ends in a column is that of the first table that lists
it. -/
theorem Plan.find?_joinedKeys (p : Plan) {column : String} (hc : Column.IsDotFree column)
    (hcols : ∀ table, ∀ c ∈ p.columnsOf table, Column.IsDotFree c) (rest : Tuple) :
    (rest.flatMap fun e => (p.columnsOf e.1).map (Column.qualified e.1)).find?
        (Column.endsIn · column) =
      (rest.find? fun e => column ∈ p.columnsOf e.1).map fun e => Column.qualified e.1 column := by
  induction rest with
  | nil => rfl
  | cons e rest ih =>
    rw [List.flatMap_cons, List.find?_append, find?_map_qualified hc e.1 (hcols e.1), ih,
      List.find?_cons]
    by_cases hlisted : column ∈ p.columnsOf e.1 <;> simp [hlisted]

namespace Tuple.IsApart

variable {p : Plan} {base : String} {d : Document} {rest : Tuple}

/-- The search finds the cell of the first joined table that lists the column, or else that of the
base table's document. -/
theorem suffixCell?_mergedRow (h : IsApart base d rest)
    (hcols : ∀ table, ∀ c ∈ p.columnsOf table, Column.IsDotFree c) {column : String}
    (hc : Column.IsDotFree column) :
    Scope.suffixCell? (p.mergedRow ((base, d) :: rest)) column =
      match rest.find? fun e => column ∈ p.columnsOf e.1 with
      | some e => some (e.2.data.cell column)
      | none => d.data.get? column := by
  have hbase : d.data.keys.find? (Column.endsIn · column) = none := by
    rw [List.find?_eq_none]
    intro key hkey
    rw [Column.endsIn_of_isDotFree (h.keys_dotFree key hkey)]
    exact Bool.false_ne_true
  have hkeys : (p.mergedRow ((base, d) :: rest)).keys.find? (Column.endsIn · column) =
      (rest.find? fun e => column ∈ p.columnsOf e.1).map fun e => Column.qualified e.1 column := by
    rw [Plan.mergedRow, p.keys_mergeOnto, Sql.find?_distinct, List.find?_append, hbase,
      Option.none_or, p.find?_joinedKeys hc hcols]
  rw [Scope.suffixCell?_eq, hkeys]
  cases hfind : rest.find? fun e => column ∈ p.columnsOf e.1 with
  | none => exact get?_mergedRow_of_isDotFree p _ _ _ hc
  | some e =>
    have hmem : e ∈ rest := List.mem_of_find?_eq_some hfind
    have hlisted : column ∈ p.columnsOf e.1 := by simpa using List.find?_some hfind
    rw [Option.map_some]
    exact (h.get?_mergedRow_of_mem p hmem column).trans (if_pos hlisted)

end Tuple.IsApart

namespace Plan

/-- What grouping and aggregates read of a tuple for a reference to a column of a table, whose
document is `e`. -/
structure ReadsColumn (p : Plan) (tuple : Tuple) (text table column : String) (e : Document) :
    Prop where
  /-- A column of a joined table is read from its document, and so is one that the base table's
  document has. -/
  eq_cell : table ≠ p.scope.base ∨ column ∈ e.data.keys →
    p.scope.lookupLenient? (p.mergedRow tuple) text = some (e.data.cell column)
  /-- A column that the base table's document lacks is read from the first joined table that lists
  one of this name. -/
  eq_find? : table = p.scope.base → column ∉ e.data.keys →
    p.scope.lookupLenient? (p.mergedRow tuple) text =
      (tuple.tail.find? fun other => column ∈ p.columnsOf other.1).map
        fun other => other.2.data.cell column
  /-- So the value is that of the document, null if it has none, unless such a table is joined. -/
  groupCell_eq : (table = p.scope.base → column ∉ e.data.keys →
      ∀ other ∈ tuple.tail, column ∉ p.columnsOf other.1) →
    groupCell p.scope (p.mergedRow tuple) text = e.data.cell column

theorem ReadsColumn.of_joined {p : Plan} {tuple : Tuple} {text table column : String}
    {e : Document} (htable : table ≠ p.scope.base)
    (h : p.scope.lookupLenient? (p.mergedRow tuple) text = some (e.data.cell column)) :
    p.ReadsColumn tuple text table column e where
  eq_cell _ := h
  eq_find? hbase := absurd hbase htable
  groupCell_eq _ := by rw [groupCell, h, Option.getD_some]

theorem ReadsColumn.of_base {p : Plan} {tuple : Tuple} {text column : String} {e : Document}
    (h : p.scope.lookupLenient? (p.mergedRow tuple) text =
      (e.data.get? column).or ((tuple.tail.find? fun other => column ∈ p.columnsOf other.1).map
        fun other => other.2.data.cell column)) :
    p.ReadsColumn tuple text p.scope.base column e := by
  cases hget : e.data.get? column with
  | some v =>
    have hkey : column ∈ e.data.keys := OrderedMap.mem_keys_of_get? hget
    have hcell : p.scope.lookupLenient? (p.mergedRow tuple) text = some (e.data.cell column) := by
      rw [h, hget, Option.some_or, Row.cell, hget, Option.getD_some]
    refine ⟨fun _ => hcell, fun _ hnot => absurd hkey hnot, fun _ => ?_⟩
    rw [groupCell, hcell, Option.getD_some]
  | none =>
    have hkey : column ∉ e.data.keys := (OrderedMap.get?_eq_none_iff _ _).mp hget
    rw [hget, Option.none_or] at h
    refine ⟨fun hor => ?_, fun _ _ => h, fun hothers => ?_⟩
    · exact absurd hor (not_or.mpr ⟨not_not.mpr rfl, hkey⟩)
    · have hfind : (tuple.tail.find? fun other => column ∈ p.columnsOf other.1) = none := by
        rw [List.find?_eq_none]
        intro other hother
        simpa using hothers rfl hkey other hother
      rw [groupCell, h, hfind, Row.cell, hget]
      rfl

namespace Accepts

variable {schema : ProjectSchema} {q : Query} {p : Plan} {d : Document} {rest : Tuple}

/-- A reference to a listed column of a table of the query reads a document of the tuple. -/
theorem exists_readsColumn (h : Accepts q schema p) (hd : schema.IsDotFree)
    (hal : ∀ e ∈ q.aliases.entries, e.1 ∈ q.tables → e.1 = e.2)
    (hapart : Tuple.IsApart p.scope.base d rest)
    (hnames : rest.map Prod.fst = q.joins.map (·.table)) (hrest : ∀ e ∈ rest, e.1 ∈ q.tables)
    {text name table column : String} (hs : Column.split text = (some name, column))
    (htable : p.scope.tableOf name = table) (hc : column ∈ p.columnsOf table) :
    ∃ e, (table, e) ∈ (p.scope.base, d) :: rest ∧
      p.ReadsColumn ((p.scope.base, d) :: rest) text table column e := by
  have hq : table ∈ q.tables := h.mem_tables_of_mem_columnsOf hc
  have hdot : Column.IsDotFree column := h.isDotFree_column hd hc
  have hlenient := p.scope.lookupLenient?_qualified (p.mergedRow ((p.scope.base, d) :: rest)) hs hdot
  obtain ⟨rfl, hname, hn, hcn⟩ := Column.split_eq_some hs
  have hlookup := h.lookup?_of_tableOf hal hapart hrest hname
    (htable ▸ h.isDotFree_table hd hq) hn hcn
  rw [hlookup, htable] at hlenient
  by_cases hb : table = p.scope.base
  · -- no key of the table's own: the bare key, and behind it the search
    obtain rfl := hb
    refine ⟨d, List.mem_cons_self, .of_base ?_⟩
    rw [hlenient, Tuple.listedCell?_of_notMem hapart.base_notMem, Option.none_or, if_pos rfl,
      Tuple.IsApart.get?_mergedRow_of_isDotFree p _ _ _ hdot,
      hapart.suffixCell?_mergedRow (fun _ _ => h.isDotFree_column hd) hdot, List.tail_cons]
    cases d.data.get? column with
    | some v => rfl
    | none => cases rest.find? fun other => column ∈ p.columnsOf other.1 <;> rfl
  · -- a joined table has a key for every listed column, so the search never starts
    have hjoined : table ∈ rest.map Prod.fst := hnames ▸ h.mem_joined hq hb
    obtain ⟨e, he, rfl⟩ := List.mem_map.mp hjoined
    refine ⟨e.2, List.mem_cons_of_mem _ he, .of_joined hb ?_⟩
    rw [hlenient, Tuple.listedCell?_of_mem hapart.names_nodup he hc, Option.some_or, Option.some_or]

/-- The tables of a joined tuple behind the first are among those of the query. -/
theorem mem_tables_of_names {ts : List Sql.Token} (h : Accepts (Query.ofTokens ts) schema p)
    (hnames : rest.map Prod.fst = (Query.ofTokens ts).joins.map (·.table)) :
    ∀ e ∈ rest, e.1 ∈ (Query.ofTokens ts).tables := by
  intro e he
  have hm : e.1 ∈ rest.map Prod.fst := List.mem_map_of_mem he
  rw [hnames] at hm
  obtain ⟨j, hj, hje⟩ := List.mem_map.mp hm
  exact hje ▸ Query.joined_mem_tables h.valid h.kind hj

end Accepts

/-- Grouping and aggregates read a column behind a table's name or alias from the document of this
table, unless it is the base table, its document lacks the column and a joined table lists one of
this name. -/
theorem readsColumn_of_split {schema : ProjectSchema} {ts : List Sql.Token} {q : Query} {p : Plan}
    (hq : Query.ofTokens ts = q) (hp : ofQuery q schema = .ok p) (hd : schema.IsDotFree)
    (hal : ∀ e ∈ q.aliases.entries, e.1 ∈ q.tables → e.1 = e.2) {fetched : Fetched}
    (hkeys : ∀ d ∈ documentsOf fetched p.scope.base, ∀ key ∈ d.data.keys, Column.IsDotFree key)
    {tuple : Tuple} (ht : tuple ∈ (tuples (p.sources fetched q.joins)).filter (p.combines q.joins))
    {text name table column : String} (hs : Column.split text = (some name, column))
    (hname : q.aliases.get? name = some table ∨ name = table) (hc : column ∈ p.columnsOf table) :
    ∃ e, (table, e) ∈ tuple ∧ p.ReadsColumn tuple text table column e := by
  have h : Accepts q schema p := ofQuery_eq_ok_iff.mp hp
  subst hq
  have ht := (List.mem_filter.mp ht).1
  obtain ⟨d, rest, rfl, hnames⟩ := Accepts.exists_eq_cons ht
  have hrest := h.mem_tables_of_names hnames
  have hbase : d ∈ documentsOf fetched p.scope.base :=
    (List.forall₂_cons.mp (mem_tuples_iff.mp ht)).1.2
  have htable : p.scope.tableOf name = table := by
    rcases hname with halias | rfl
    · rw [h.scope, Scope.tableOf, halias, Option.getD_some]
    · exact h.tableOf_of_mem hal (h.mem_tables_of_mem_columnsOf hc)
  exact h.exists_readsColumn hd hal (h.isApart_of_names hd (hkeys d hbase) hnames hrest) hnames
    hrest hs htable hc

open Sample

/-- How many orders the users of each name have. -/
def ordersByName : String :=
  "SELECT u.name, COUNT(o.name) AS n FROM users u JOIN orders o ON u.id = o.user_id GROUP BY u.name"

theorem readsColumn_ordersByName :
    ((tuplesOf ordersByName).map fun tuple =>
        groupCell (planOf ordersByName).scope ((planOf ordersByName).mergedRow tuple) "o.name") =
      [.text "pen", .text "ink"] ∧
    ∀ tuple ∈ tuplesOf ordersByName, ∃ e, ("orders", e) ∈ tuple ∧
      (planOf ordersByName).ReadsColumn tuple "o.name" "orders" "name" e := by
  have hquery : ofQuery (.ofText ordersByName) schema = .ok (planOf ordersByName) ∧
      (∀ e ∈ (Query.ofText ordersByName).aliases.entries,
        e.1 ∈ (Query.ofText ordersByName).tables → e.1 = e.2) ∧
      (∀ d ∈ documentsOf (fetchedOf ordersByName) (planOf ordersByName).scope.base,
        ∀ key ∈ d.data.keys, Column.IsDotFree key) ∧
      (Query.ofText ordersByName).aliases.get? "o" = some "orders" ∧
      "name" ∈ (planOf ordersByName).columnsOf "orders" := by
    decide +kernel
  obtain ⟨hp, hal, hkeys, halias, hc⟩ := hquery
  have hs : Column.split "o.name" = (some "o", "name") := by decide +kernel
  exact ⟨by decide +kernel, fun tuple ht =>
    readsColumn_of_split rfl hp schema_isDotFree hal hkeys ht hs (.inl halias) hc⟩

/-- The user without a name is counted under the name of their order. -/
theorem lookupLenient?_missing_name :
    ((tuplesOf ordersByName).map fun tuple =>
        ((tuple.document? "users").map (·.data.get? "name"),
          (planOf ordersByName).scope.lookupLenient?
            ((planOf ordersByName).mergedRow tuple) "u.name")) =
        [(some (some (.text "Ann")), some (.text "Ann")), (some none, some (.text "ink"))] ∧
      execute (.ofText ordersByName) schema shop.fetch 2 = .ok
        [.ofList [("name", .text "Ann"), ("u.name", .text "Ann"), ("n", .int 1)],
          .ofList [("name", .text "ink"), ("u.name", .text "ink"), ("n", .int 1)]] := by
  decide +kernel

end Plan
end DocumentSql
