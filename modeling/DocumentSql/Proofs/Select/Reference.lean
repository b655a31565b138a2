/-
# What a query without groups returns

A SELECT with joins returns one row for each choice of documents, one of each
of its tables, for which every ON clause finds two equal cells; the documents
of a table are the first that satisfy the conditions routed to it, and the
choices come in lexicographic order (`execute_eq_reference`). No row that was
merged on the way is mentioned: `Plan.referenceRow` builds the row of a choice
from the documents themselves. An item `p.c` shows column `c` of the document
of the table that `p` names, an item `c` the cell of the base table's document
or else of the first joined table that lists the column, and `*` shows all
columns that the schemas list.

The names have to be unambiguous for that: none has a dot or is empty, and an
alias belongs to one table and is not the name of another.

Key definitions: `Query.HasPlainAliases`, `Plan.referenceCell`,
`Plan.referenceRow`, `MemoryStore.matching`.
Key theorems: `Plan.Accepts.lookup?_eq_referenceCell`,
`Plan.Accepts.projectRow_eq_referenceRow`, `Plan.execute_eq_reference`.
-/
import DocumentSql.Proofs.Select.Matching
import DocumentSql.Proofs.Sql.Statement

namespace DocumentSql

/-- No table and no column of the project has an empty name. -/
structure ProjectSchema.IsNamed (schema : ProjectSchema) : Prop where
  tables : ∀ t ∈ schema.tables, t.name ≠ ""
  columns : ∀ t ∈ schema.tables, "" ∉ t.columns

/-- No two joins have the same alias, and no alias is the name of another table of the query. -/
structure Query.HasPlainAliases (q : Query) : Prop where
  nodup : (q.joins.filterMap (·.aliasName)).Nodup
  table_eq : ∀ e ∈ q.aliases.entries, e.1 ∈ q.tables → e.1 = e.2

/-- The cell of a table's document, null if there is none. -/
def Tuple.cell (tuple : Tuple) (table column : String) : Scalar :=
  match tuple.document? table with
  | some d => d.data.cell column
  | none => .null

namespace Plan

variable (p : Plan)

/-- The cell at a key: `table.column` is a listed column of a joined table, any other key one of
the base table's document. -/
def keyCell? (tuple : Tuple) (key : String) : Option Scalar :=
  match Column.split key with
  | (some table, column) =>
    if table = p.scope.base then none else tuple.listedCell? p table column
  | (none, _) => (tuple.document? p.scope.base).bind (·.data.get? key)

/-- The cell that a reference means. With a table part it is a column of the table that the part
names, for the base table any key; without one it is the base table's cell, or else that of the
first joined table that lists the column. -/
def referenceCell (tuple : Tuple) (text : String) : Scalar :=
  match Column.split text with
  | (some name, column) =>
    if p.scope.tableOf name = p.scope.base then (p.keyCell? tuple column).getD .null
    else (tuple.listedCell? p (p.scope.tableOf name) column).getD .null
  | (none, _) =>
    ((p.keyCell? tuple text).or
      (p.scope.tables.tail.findSome? fun t => tuple.listedCell? p t text)).getD .null

/-- The columns that `*` means: those of the base table, and those of the joined tables behind
their names. -/
def starCells (tuple : Tuple) : List (String × Scalar) :=
  (p.columnsOf p.scope.base).map (fun c => (c, tuple.cell p.scope.base c)) ++
    p.scope.tables.tail.flatMap fun t =>
      (p.columnsOf t).map fun c => (Column.qualified t c, tuple.cell t c)

/-- The cells that an item of the select list means. -/
def referenceCells (tuple : Tuple) (item : String) : List (String × Scalar) :=
  if item = "*" then p.starCells tuple else [(item, p.referenceCell tuple item)]

/-- The row of the result that a tuple means. -/
def referenceRow (q : Query) (tuple : Tuple) : Row :=
  .ofList (q.columns.flatMap (p.referenceCells tuple))

/-- Whether a document satisfies a condition, unless that is routed to another table. -/
def meets (table : String) (d : Document) (c : Condition) : Bool :=
  match routeColumn p.scope p.tables c.column with
  | .ok (routed, column) =>
    routed != table || Predicate.holds ⟨column, c.comparison, c.value⟩ d.data
  | .error _ => true

end Plan

/-- The first documents of a table that satisfy all conditions routed to it. -/
def MemoryStore.matching (s : MemoryStore) (project : String) (p : Plan) (q : Query)
    (rowCap : Nat) (table : String) : List Document :=
  ((s.documentsOf project table).filter fun d => q.conditions.all (p.meets table d)).take rowCap

/-! ### The fetched documents -/

namespace Plan

theorem holdsAll_predicatesFor_eq {p : Plan} (table : String) (d : Document)
    {conditions : List Condition} {routed : List Routed}
    (h : List.Forall₂ (fun c r => routeCondition p.scope p.tables c = .ok r) conditions routed) :
    conditions.all (p.meets table d) =
      holdsAll ((routed.filter (·.table == table)).map (·.predicate)) d := by
  induction h with
  | nil => rfl
  | @cons c r conditions routed hc _ ih =>
    obtain ⟨hroute, hr⟩ := routeCondition_eq_ok hc
    have hmeets : p.meets table d c = (r.table != table || r.predicate.holds d.data) := by
      rw [hr]
      simp only [meets, hroute]
    rw [List.all_cons, ih, hmeets, List.filter_cons]
    by_cases ht : r.table = table
    · simp [ht, holdsAll]
    · simp [ht]

theorem Accepts.selected_eq_matching {schema : ProjectSchema} {q : Query} {p : Plan}
    (h : Accepts q schema p) (s : MemoryStore) (project : String) (rowCap : Nat) (table : String) :
    s.selected project p rowCap table = s.matching project p q rowCap table := by
  unfold MemoryStore.selected MemoryStore.matching
  refine congrArg (List.take rowCap) (List.filter_congr fun d _ => ?_)
  exact (holdsAll_predicatesFor_eq table d (routeConditions_eq_ok h.routed)).symm

end Plan

/-! ### The row of a tuple -/

namespace Tuple

variable {p : Plan} {d : Document} {rest : Tuple}

theorem listedCell?_cons {table : String} (ht : table ≠ p.scope.base) (column : String) :
    listedCell? p ((p.scope.base, d) :: rest) table column = listedCell? p rest table column := by
  simp only [listedCell?, document?, Entries.find?, Ne.symm ht, if_false]

namespace IsApart

theorem get?_mergedRow_eq_keyCell? (h : IsApart p.scope.base d rest)
    (hn : "" ∉ rest.map Prod.fst) (hc : ∀ t, "" ∉ p.columnsOf t) (key : String) :
    (p.mergedRow ((p.scope.base, d) :: rest)).get? key =
      p.keyCell? ((p.scope.base, d) :: rest) key := by
  cases hs : Column.split key with
  | mk table column =>
    cases table with
    | some table =>
      obtain ⟨rfl, hd, -, -⟩ := Column.split_eq_some hs
      simp only [Plan.keyCell?, hs]
      rw [h.get?_mergedRow_qualified p hd]
      split
      · rename_i hb
        exact hb ▸ listedCell?_of_notMem h.base_notMem column
      · rename_i hb
        exact (listedCell?_cons hb column).symm
    | none =>
      simp only [Plan.keyCell?, hs, h.document?_base, Option.bind_some]
      rcases Column.isDotFree_or_of_split_eq_none hs with hd | ⟨table, name, rfl, hd, hempty⟩
      · exact get?_mergedRow_of_isDotFree p _ _ _ hd
      · rw [h.get?_mergedRow_qualified p hd, h.get?_eq_none]
        rcases hempty with rfl | rfl
        · exact listedCell?_of_notMem hn name
        · exact listedCell?_of_not_listed (hc table)

end IsApart
end Tuple

namespace Plan
namespace Accepts

variable {schema : ProjectSchema} {q : Query} {p : Plan} {documents : String → List Document}
variable {d : Document} {rest : Tuple}

theorem lookup?_eq_referenceCell (h : Accepts q schema p) (hd : schema.IsDotFree)
    (hal : q.HasPlainAliases) (hmem : ∀ a t, q.aliases.get? a = some t → t ∈ q.tables)
    (hapart : Tuple.IsApart p.scope.base d rest) (hnames : ∀ e ∈ rest, e.1 ∈ q.tables)
    (hkey : ∀ key, (p.mergedRow ((p.scope.base, d) :: rest)).get? key =
      p.keyCell? ((p.scope.base, d) :: rest) key) (text : String) :
    (p.scope.lookup? (p.mergedRow ((p.scope.base, d) :: rest)) text).getD .null =
      p.referenceCell ((p.scope.base, d) :: rest) text := by
  cases hs : Column.split text with
  | mk name column =>
    cases name with
    | some name =>
      obtain ⟨rfl, hname, hne, hcne⟩ := Column.split_eq_some hs
      have htable : Column.IsDotFree (p.scope.tableOf name) := by
        rw [h.scope]
        unfold Scope.tableOf
        cases hg : q.aliases.get? name with
        | none => exact hname
        | some table => exact h.isDotFree_table hd (hmem name table hg)
      rw [h.lookup?_of_tableOf hal.table_eq hapart hnames hname htable hne hcne]
      simp only [referenceCell, hs]
      split
      · rename_i hb
        rw [hb, Tuple.listedCell?_of_notMem hapart.base_notMem, Option.none_or, hkey]
      · rename_i hb
        rw [Option.or_none, Tuple.listedCell?_cons hb]
    | none =>
      obtain rfl := Column.split_eq_none hs
      have htail : ∀ t ∈ p.scope.tables.tail, Column.IsDotFree t :=
        fun t ht => h.isDotFree_table hd (h.mem_of_mem_tail ht)
      have hbase : p.keyCell? ((p.scope.base, d) :: rest) column = d.data.get? column := by
        simp only [keyCell?, hs, hapart.document?_base, Option.bind_some]
      rw [hapart.lookup?_bare hs ((hkey column).trans hbase) htail]
      simp only [referenceCell, hs, hbase]
      refine congrArg (fun o => ((d.data.get? column).or o).getD .null) ?_
      refine findSome?_congr fun t ht => (Tuple.listedCell?_cons ?_ column).symm
      exact (h.mem_tail_iff.mp ht).2

theorem starKeys_eq (h : Accepts q schema p) :
    p.starKeys q.joins = p.columnsOf p.scope.base ++
      p.scope.tables.tail.flatMap fun t => (p.columnsOf t).map (Column.qualified t) := by
  have hnames := h.names_tables
  rw [h.tables_eq_cons] at hnames
  obtain ⟨b, tables, hp, hbase, htail⟩ := List.map_eq_cons_iff.mp hnames
  have hmem : ∀ t ∈ tables, t ∈ p.tables := fun t ht => hp ▸ List.mem_cons_of_mem _ ht
  have hjoined : ∀ t ∈ tables,
      (t.name != p.scope.base && q.joins.any (·.table == t.name)) = true := by
    intro t ht
    have hm : t.name ∈ p.scope.tables.tail := htail ▸ List.mem_map_of_mem ht
    obtain ⟨j, hj, he⟩ := List.mem_map.mp (h.mem_joined_of_mem_tail hm)
    rw [Bool.and_eq_true, bne_iff_ne, List.any_eq_true]
    exact ⟨(h.mem_tail_iff.mp hm).2, j, hj, beq_iff_eq.mpr he⟩
  have hstar : p.starTables q.joins = tables := by
    rw [starTables, hp, List.filter_cons, List.filter_eq_self.mpr hjoined, hbase]
    simp
  rw [starKeys, hstar, ← htail, List.flatMap_map]
  refine congrArg (p.columnsOf p.scope.base ++ ·) (List.flatMap_congr fun t ht => ?_)
  rw [h.columnsOf_eq (hmem t ht)]

theorem selectCells_eq_referenceCells (h : Accepts q schema p) (hd : schema.IsDotFree)
    (hal : q.HasPlainAliases) (hmem : ∀ a t, q.aliases.get? a = some t → t ∈ q.tables)
    (hapart : Tuple.IsApart p.scope.base d rest)
    (hnames : rest.map Prod.fst = q.joins.map (·.table)) (hjoined : ∀ e ∈ rest, e.1 ∈ q.tables)
    (hkey : ∀ key, (p.mergedRow ((p.scope.base, d) :: rest)).get? key =
      p.keyCell? ((p.scope.base, d) :: rest) key) (item : String) :
    p.selectCells q.joins (p.mergedRow ((p.scope.base, d) :: rest)) item =
      p.referenceCells ((p.scope.base, d) :: rest) item := by
  unfold selectCells referenceCells
  split
  · rw [h.starKeys_eq, starCells, List.map_append, List.map_flatMap]
    refine congrArg₂ (· ++ ·) (List.map_congr_left fun c hc => ?_)
      (List.flatMap_congr fun t ht => ?_)
    · have hdot := h.isDotFree_column hd hc
      simp only [Tuple.cell, hapart.document?_base, Row.cell]
      rw [Tuple.IsApart.get?_mergedRow_of_isDotFree p _ _ _ hdot]
    · rw [List.map_map]
      refine List.map_congr_left fun c hc => ?_
      have hm : t ∈ rest.map Prod.fst := hnames ▸ h.mem_joined_of_mem_tail ht
      obtain ⟨e, he, rfl⟩ := List.mem_map.mp hm
      simp only [Function.comp_apply, Tuple.cell, Row.cell]
      rw [hapart.get?_mergedRow_of_mem p he, if_pos hc,
        hapart.document?_of_mem (List.mem_cons_of_mem _ he)]
      rfl
  · rw [h.lookup?_eq_referenceCell hd hal hmem hapart hjoined hkey]

theorem empty_notMem_columnsOf (h : Accepts q schema p) (hnamed : schema.IsNamed)
    (table : String) : "" ∉ p.columnsOf table := by
  unfold columnsOf
  split
  · rename_i t ht
    exact hnamed.columns t (h.mem_schema (List.mem_of_find?_eq_some ht))
  · exact List.not_mem_nil

theorem projectRow_eq_referenceRow (h : Accepts q schema p) (hd : schema.IsDotFree)
    (hnamed : schema.IsNamed) (hal : q.HasPlainAliases)
    (hmem : ∀ a t, q.aliases.get? a = some t → t ∈ q.tables)
    (hkeys : ∀ d ∈ documents p.scope.base, ∀ key ∈ d.data.keys, Column.IsDotFree key)
    {tuple : Tuple}
    (ht : tuple ∈ tuples (p.sources (withDocuments q.tables documents) q.joins)) :
    p.projectRow q (p.mergedRow tuple) = p.referenceRow q tuple := by
  obtain ⟨d, rest, rfl, hnames⟩ := exists_eq_cons ht
  have hapart := h.isApart hd hkeys ht
  have hjoined : ∀ e ∈ rest, e.1 ∈ q.tables :=
    fun e he => (mem_documents ht (List.mem_cons_of_mem _ he)).1
  have hn : "" ∉ rest.map Prod.fst := by
    intro hm
    obtain ⟨e, he, hempty⟩ := List.mem_map.mp hm
    obtain ⟨t, htm, hname⟩ := h.mem_tables (hjoined e he)
    exact hnamed.tables t (h.mem_schema htm) (hname.trans hempty)
  have hkey := hapart.get?_mergedRow_eq_keyCell? hn (h.empty_notMem_columnsOf hnamed)
  refine congrArg OrderedMap.ofList (List.flatMap_congr fun item _ => ?_)
  exact h.selectCells_eq_referenceCells hd hal hmem hapart hnames hjoined hkey item

end Accepts

/-- The rows of a query without groups: one for each choice of documents of its tables for which
all ON clauses find equal cells, in lexicographic order. -/
theorem execute_eq_reference {s : MemoryStore} {project : String} {schema : ProjectSchema}
    {ts : List Sql.Token} {q : Query} {p : Plan} {rowCap : Nat} (hs : s.Reachable)
    (hids : s.HasColonFreeIds) (hschema : s.schema project = .ok schema)
    (hq : Query.ofTokens ts = q) (hp : ofQuery q schema = .ok p) (hgroups : q.isAggregate = false)
    (hd : schema.IsDotFree) (hnamed : schema.IsNamed)
    (hkeys : ∀ d ∈ s.documentsOf project p.scope.base, ∀ key ∈ d.data.keys,
      Column.IsDotFree key)
    (hal : q.HasPlainAliases) (hon : p.OnEarlier [p.scope.base] q.joins) :
    execute q schema s.fetch rowCap = .ok
      (((tuples ((p.scope.base, s.matching project p q rowCap p.scope.base) ::
          q.joins.map fun j => (j.table, s.matching project p q rowCap j.table))).filter
        fun tuple => q.joins.all fun j => tuple.matchesOn p.scope j.on).map
          (p.referenceRow q)) := by
  have h := ofQuery_eq_ok_iff.mp hp
  subst hq
  have hjoined : ∀ j ∈ (Query.ofTokens ts).joins, j.table ∈ (Query.ofTokens ts).tables :=
    fun j hj => Query.joined_mem_tables h.valid h.kind hj
  have hstand : ∀ j ∈ (Query.ofTokens ts).joins, p.NamesStandFor j := by
    intro j hj
    refine ⟨h.tableOf_of_mem hal.table_eq (hjoined j hj), fun aliasName ha => ?_⟩
    rw [h.scope, Scope.tableOf, Query.get?_aliases_of_join h.valid h.kind hal.nodup hj ha]
    rfl
  have hsources : p.sources (withDocuments (Query.ofTokens ts).tables
        (s.selected project p rowCap)) (Query.ofTokens ts).joins =
      (p.scope.base, s.matching project p (Query.ofTokens ts) rowCap p.scope.base) ::
        (Query.ofTokens ts).joins.map fun j =>
          (j.table, s.matching project p (Query.ofTokens ts) rowCap j.table) := by
    rw [sources, documentsOf_withDocuments, if_pos h.base_mem, h.selected_eq_matching]
    refine congrArg (List.cons _) (List.map_congr_left fun j hj => ?_)
    rw [documentsOf_withDocuments, if_pos (hjoined j hj), h.selected_eq_matching]
  have hselected : ∀ d ∈ s.selected project p rowCap p.scope.base, ∀ key ∈ d.data.keys,
      Column.IsDotFree key := fun d hm => hkeys d (MemoryStore.mem_of_mem_selected hm)
  have hcombines : ∀ tuple ∈ tuples (p.sources (withDocuments (Query.ofTokens ts).tables
        (s.selected project p rowCap)) (Query.ofTokens ts).joins),
      p.combines (Query.ofTokens ts).joins tuple =
        (Query.ofTokens ts).joins.all fun j => tuple.matchesOn p.scope j.on := by
    intro tuple ht
    obtain ⟨d, rest, rfl, hnames⟩ := Accepts.exists_eq_cons ht
    exact (h.isApart hd hselected ht).combines_eq hnames hstand hon
  rw [h.execute_eq hs hids hschema, resultRows, hgroups, joinedRows_eq, ← hsources,
    if_neg Bool.false_ne_true, List.map_map, List.filter_congr hcombines]
  refine congrArg Except.ok (List.map_congr_left fun tuple ht => ?_)
  exact h.projectRow_eq_referenceRow hd hnamed hal
    (fun a t => Query.mem_tables_of_alias h.valid h.kind) hselected (List.mem_filter.mp ht).1

open Sample

/-- Orders with the names of their users. -/
def orderNames : String :=
  "SELECT u.name, o.id, name, * FROM users u JOIN orders o ON o.user_id = u.id WHERE name != 'Bob'"

theorem execute_orderNames :
    execute (.ofText orderNames) schema shop.fetch 2 = .ok
      (((tuples (((planOf orderNames).scope.base,
            shop.matching "shop" (planOf orderNames) (.ofText orderNames) 2
              (planOf orderNames).scope.base) ::
          (Query.ofText orderNames).joins.map fun j => (j.table,
            shop.matching "shop" (planOf orderNames) (.ofText orderNames) 2 j.table))).filter
        fun tuple => (Query.ofText orderNames).joins.all fun j =>
          tuple.matchesOn (planOf orderNames).scope j.on).map
            ((planOf orderNames).referenceRow (.ofText orderNames))) ∧
      execute (.ofText orderNames) schema shop.fetch 2 = .ok [
        .ofList [("u.name", .text "Ann"), ("o.id", .int 7), ("name", .text "Ann"), ("id", .int 1),
          ("orders.id", .int 7), ("orders.user_id", .int 1), ("orders.name", .text "pen"),
          ("orders.*", .null)],
        .ofList [("u.name", .null), ("o.id", .int 8), ("name", .null), ("id", .int 2),
          ("orders.id", .int 8), ("orders.user_id", .int 2), ("orders.name", .text "ink"),
          ("orders.*", .int 5)]] := by
  have hjoins : (Query.ofText orderNames).joins =
      [⟨.inner, "orders", some "o", ⟨"o.user_id", "=", "u.id"⟩⟩] := by decide +kernel
  have hon : (planOf orderNames).OnEarlier [(planOf orderNames).scope.base]
      (Query.ofText orderNames).joins := by
    rw [hjoins]
    refine ⟨.inl ⟨by decide +kernel, "u", by decide +kernel, by decide +kernel, ?_⟩, trivial⟩
    exact fun hne => absurd (by decide +kernel) hne
  refine ⟨?_, by decide +kernel⟩
  exact execute_eq_reference shop_reachable shop_hasColonFreeIds shop_schema rfl
    (by decide +kernel) (by decide +kernel) schema_isDotFree ⟨by decide, by decide⟩
    (by decide +kernel) ⟨by decide +kernel, by decide +kernel⟩ hon

end Plan
end DocumentSql
