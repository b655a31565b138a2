/-
# What a column reference shows

WHERE reads a column of the table that the reference is routed to. The select
list reads keys of the merged row instead: the reference itself first, then the
key of the table it names, then, for a bare name, the keys of the joined tables
in order. `Plan.shownTable` is the table whose document the cell comes from
(`selectCells_of_routed`). It is the table that WHERE reads except in three
cases (`Plan.IsShadowed`):

* the table part is an alias of one table and the name of another, joined one
  that lists the column as well;
* the name is bare and the base table's, but its document lacks the key, and a
  joined table lists the column as well;
* the name is bare and a joined table's, but the base table's document has a
  key of that name that its schema does not list.

The item `*` stands for all columns, also where a table lists a column `*`.

Key definitions: `Tuple.listedCell?`, `Plan.shownTable`, `Plan.IsShadowed`.
Key theorems: `Tuple.IsApart.lookup?_qualified`, `Tuple.IsApart.lookup?_bare`,
`Plan.Accepts.shownTable_eq_iff`, `Plan.selectCells_of_routed`.
-/
import DocumentSql.Proofs.Select.Fetched

namespace DocumentSql
namespace Tuple

/-- The cell of the document of a joined table, if the schema of the table lists the column. -/
def listedCell? (p : Plan) (rest : Tuple) (table column : String) : Option Scalar :=
  if column ∈ p.columnsOf table then (rest.document? table).map (·.data.cell column) else none

theorem listedCell?_of_mem {p : Plan} {rest : Tuple} (hn : (rest.map Prod.fst).Nodup)
    {table column : String} {e : Document} (he : (table, e) ∈ rest)
    (hc : column ∈ p.columnsOf table) :
    listedCell? p rest table column = some (e.data.cell column) := by
  rw [listedCell?, if_pos hc, document?, Entries.find?_of_mem hn he]
  rfl

theorem listedCell?_of_notMem {p : Plan} {rest : Tuple} {table : String}
    (h : table ∉ rest.map Prod.fst) (column : String) :
    listedCell? p rest table column = none := by
  rw [listedCell?, document?, (Entries.find?_eq_none_iff table rest).mpr h]
  split <;> rfl

theorem listedCell?_of_not_listed {p : Plan} {rest : Tuple} {table column : String}
    (h : column ∉ p.columnsOf table) : listedCell? p rest table column = none := if_neg h

namespace IsApart

variable {base : String} {d : Document} {rest : Tuple}

/-- Under `table.column` stands the listed cell of that joined table, or nothing. -/
theorem get?_mergedRow_qualified (h : IsApart base d rest) (p : Plan) {table : String}
    (ht : Column.IsDotFree table) (column : String) :
    (p.mergedRow ((base, d) :: rest)).get? (Column.qualified table column) =
      listedCell? p rest table column := by
  by_cases hm : table ∈ rest.map Prod.fst
  · obtain ⟨e, he, rfl⟩ := List.mem_map.mp hm
    rw [h.get?_mergedRow_of_mem p he]
    split
    · rename_i hc
      exact (listedCell?_of_mem h.names_nodup he hc).symm
    · rename_i hc
      exact (listedCell?_of_not_listed hc).symm
  · rw [h.get?_mergedRow_of_notMem p ht hm, listedCell?_of_notMem hm]

variable {p : Plan}

/-- A reference with a table part: the joined table of that name, then the table that the part
stands for. -/
theorem lookup?_qualified (h : IsApart p.scope.base d rest) {name column : String}
    (hname : Column.IsDotFree name) (htable : Column.IsDotFree (p.scope.tableOf name))
    (hn : name ≠ "") (hc : column ≠ "") :
    p.scope.lookup? (p.mergedRow ((p.scope.base, d) :: rest)) (Column.qualified name column) =
      (listedCell? p rest name column).or ((listedCell? p rest (p.scope.tableOf name) column).or
        (if p.scope.tableOf name = p.scope.base then
          (p.mergedRow ((p.scope.base, d) :: rest)).get? column else none)) := by
  rw [Scope.lookup?, h.get?_mergedRow_qualified p hname]
  cases listedCell? p rest name column with
  | some v => rfl
  | none =>
    simp only [Column.split_qualified hname hn hc, Option.none_or]
    rw [h.get?_mergedRow_qualified p htable]
    cases listedCell? p rest (p.scope.tableOf name) column <;> rfl

/-- A reference without a table part: the base table's document, then the joined tables in
order. -/
theorem lookup?_bare (h : IsApart p.scope.base d rest) {text : String}
    (hs : Column.split text = (none, text))
    (hkey : (p.mergedRow ((p.scope.base, d) :: rest)).get? text = d.data.get? text)
    (htail : ∀ t ∈ p.scope.tables.tail, Column.IsDotFree t) :
    p.scope.lookup? (p.mergedRow ((p.scope.base, d) :: rest)) text =
      (d.data.get? text).or
        (p.scope.tables.tail.findSome? fun t => listedCell? p rest t text) := by
  rw [Scope.lookup?, hkey]
  cases d.data.get? text with
  | some v => rfl
  | none =>
    simp only [hs, Option.none_or]
    exact findSome?_congr fun t ht => h.get?_mergedRow_qualified p (htail t ht) text

end IsApart
end Tuple

namespace Plan

/-- The table whose document a reference shows a cell of, if WHERE routes the reference to `column`
of `table` and the base table's document is `d`. -/
def shownTable (p : Plan) (d : Document) (text table column : String) : String :=
  match (Column.split text).1 with
  | some name =>
    if name ∈ p.scope.tables.tail ∧ column ∈ p.columnsOf name then name else table
  | none =>
    if column ∈ d.data.keys then p.scope.base
    else (p.scope.tables.tail.find? fun t => column ∈ p.columnsOf t).getD p.scope.base

/-- A reference that WHERE routes to `column` of `table` is found elsewhere before. -/
def IsShadowed (p : Plan) (d : Document) (text table column : String) : Prop :=
  match (Column.split text).1 with
  | some name => name ≠ table ∧ name ∈ p.scope.tables.tail ∧ column ∈ p.columnsOf name
  | none =>
    if table = p.scope.base then
      column ∉ d.data.keys ∧ ∃ t ∈ p.scope.tables.tail, column ∈ p.columnsOf t
    else column ∈ d.data.keys

/-- The first of the tables that lists a column is the one whose cell is found. -/
theorem findSome?_listedCell? {p : Plan} {rest : Tuple} (column : String) :
    ∀ tables : List String, (∀ t ∈ tables, t ∈ rest.map Prod.fst) →
      tables.findSome? (fun t => Tuple.listedCell? p rest t column) =
        (tables.find? fun t => column ∈ p.columnsOf t).bind
          fun t => Tuple.listedCell? p rest t column
  | [], _ => rfl
  | t :: tables, h => by
    rw [List.forall_mem_cons] at h
    rw [List.findSome?_cons, List.find?_cons]
    by_cases hc : column ∈ p.columnsOf t
    · obtain ⟨e, he⟩ : ∃ e, Entries.find? t rest = some e :=
        Option.ne_none_iff_exists'.mp (mt (Entries.find?_eq_none_iff t rest).mp (not_not.mpr h.1))
      simp [Tuple.listedCell?, Tuple.document?, hc, he]
    · rw [Tuple.listedCell?_of_not_listed hc, findSome?_listedCell? column tables h.2]
      simp [hc]

namespace Accepts

variable {schema : ProjectSchema} {q : Query} {p : Plan}

theorem tables_eq_cons (h : Accepts q schema p) :
    q.tables = p.scope.base :: p.scope.tables.tail := by
  rw [h.base_eq, h.scope]
  exact (List.cons_head_tail h.nonempty).symm

theorem mem_of_mem_tail (h : Accepts q schema p) {t : String} (ht : t ∈ p.scope.tables.tail) :
    t ∈ q.tables := h.tables_eq_cons ▸ List.mem_cons_of_mem _ ht

/-- The tables behind the base table are joined. -/
theorem mem_joined_of_mem_tail (h : Accepts q schema p) {t : String}
    (ht : t ∈ p.scope.tables.tail) : t ∈ q.joins.map (·.table) := by
  rw [h.scope] at ht
  exact (crossJoined?_eq_none_iff _ _).mp h.closed t ht

theorem mem_tail_iff (h : Accepts q schema p) {t : String} :
    t ∈ p.scope.tables.tail ↔ t ∈ q.tables ∧ t ≠ p.scope.base := by
  constructor
  · intro ht
    refine ⟨h.mem_of_mem_tail ht, ?_⟩
    rintro rfl
    exact h.base_notMem_joined (h.mem_joined_of_mem_tail ht)
  · rintro ⟨ht, hb⟩
    rw [h.tables_eq_cons] at ht
    exact (List.mem_cons.mp ht).resolve_left hb

/-- A bare name is routed to the base table if that lists it, else to the first table behind it
that does. -/
theorem find?_tail (h : Accepts q schema p) {t : TableSchema} {column : String}
    (ht : p.tables.find? (·.hasColumn column) = some t) (hb : t.name ≠ p.scope.base) :
    (p.scope.tables.tail.find? fun name => column ∈ p.columnsOf name) = some t.name := by
  have hlisted : ∀ u ∈ p.tables, decide (column ∈ p.columnsOf u.name) = u.hasColumn column := by
    intro u hu
    rw [h.columnsOf_eq hu, TableSchema.hasColumn, List.contains_eq_mem]
  have hnames := h.names_tables
  rw [h.tables_eq_cons] at hnames
  obtain ⟨b, tables, hp, hbase, htail⟩ := List.map_eq_cons_iff.mp hnames
  rw [hp] at ht hlisted
  rw [List.forall_mem_cons] at hlisted
  rw [List.find?_cons] at ht
  split at ht
  · obtain rfl := Option.some.inj ht
    exact absurd hbase hb
  · rw [← htail, List.find?_map]
    have hcongr : tables.find? ((fun name => decide (column ∈ p.columnsOf name)) ∘ (·.name)) =
        tables.find? (·.hasColumn column) := List.find?_congr fun u hu => hlisted.2 u hu
    rw [hcongr, ht]
    rfl

/-- The cell that a reference shows is the one that WHERE reads unless the reference is
shadowed. -/
theorem shownTable_eq_iff (h : Accepts q schema p) (d : Document) {text table column : String}
    (hroute : routeColumn p.scope p.tables text = .ok (table, column)) :
    p.shownTable d text table column = table ↔ ¬ p.IsShadowed d text table column := by
  obtain ⟨t, ht, rfl, hc, hsplit⟩ := routeColumn_eq_ok hroute
  rcases hsplit with ⟨name, hs, -⟩ | ⟨hs, hfind⟩
  · simp only [shownTable, IsShadowed, hs]
    split
    · rename_i hm
      exact ⟨fun he hn => hn.1 he, fun hn => not_not.mp fun he => hn ⟨he, hm⟩⟩
    · rename_i hm
      exact iff_of_true rfl fun hn => hm hn.2
  · simp only [shownTable, IsShadowed, hs]
    by_cases hb : t.name = p.scope.base
    · by_cases hk : column ∈ d.data.keys
      · simp [hb, hk]
      · rw [if_neg hk, if_pos hb, hb]
        cases hf : p.scope.tables.tail.find? fun name => column ∈ p.columnsOf name with
        | none =>
          refine iff_of_true rfl ?_
          rintro ⟨-, u, hu, hcu⟩
          simpa [hcu] using List.find?_eq_none.mp hf u hu
        | some u =>
          have hu := List.mem_of_find?_eq_some hf
          have hcu : column ∈ p.columnsOf u := by simpa using List.find?_some hf
          refine iff_of_false (h.mem_tail_iff.mp hu).2 (not_not.mpr ⟨hk, u, hu, hcu⟩)
    · rw [h.find?_tail hfind hb]
      by_cases hk : column ∈ d.data.keys
      · simp [hb, hk, Ne.symm hb]
      · simp [hb, hk]

variable {d : Document} {rest : Tuple}

/-- If no alias is the name of another table, a joined table that has the name of the table part is
the table that it stands for. -/
theorem lookup?_of_tableOf (h : Accepts q schema p)
    (hal : ∀ e ∈ q.aliases.entries, e.1 ∈ q.tables → e.1 = e.2)
    (hapart : Tuple.IsApart p.scope.base d rest) (hrest : ∀ e ∈ rest, e.1 ∈ q.tables)
    {name column : String} (hname : Column.IsDotFree name)
    (htable : Column.IsDotFree (p.scope.tableOf name)) (hn : name ≠ "") (hc : column ≠ "") :
    p.scope.lookup? (p.mergedRow ((p.scope.base, d) :: rest)) (Column.qualified name column) =
      (Tuple.listedCell? p rest (p.scope.tableOf name) column).or
        (if p.scope.tableOf name = p.scope.base then
          (p.mergedRow ((p.scope.base, d) :: rest)).get? column else none) := by
  have hor : (Tuple.listedCell? p rest name column).or
      (Tuple.listedCell? p rest (p.scope.tableOf name) column) =
      Tuple.listedCell? p rest (p.scope.tableOf name) column := by
    by_cases hm : name ∈ rest.map Prod.fst
    · obtain ⟨e, he, rfl⟩ := List.mem_map.mp hm
      rw [h.tableOf_of_mem hal (hrest e he), Option.or_self]
    · rw [Tuple.listedCell?_of_notMem hm, Option.none_or]
  rw [hapart.lookup?_qualified hname htable hn hc, ← Option.or_assoc, hor]

variable {documents : String → List Document}

/-- A joined table that lists a column has a document in the tuple, which shows the cell. -/
theorem exists_listedCell? (h : Accepts q schema p)
    (ht : (p.scope.base, d) :: rest ∈
      tuples (p.sources (withDocuments q.tables documents) q.joins))
    {table column : String} (htail : table ∈ p.scope.tables.tail)
    (hc : column ∈ p.columnsOf table) :
    ∃ e, (table, e) ∈ (p.scope.base, d) :: rest ∧
      Tuple.listedCell? p rest table column = some (e.data.cell column) := by
  have hnames := names_of_tuple ht
  have hm := h.mem_joined_of_mem_tail htail
  rw [← hnames] at hm
  obtain ⟨e, he, rfl⟩ := List.mem_map.mp hm
  exact ⟨e.2, List.mem_cons_of_mem _ he,
    Tuple.listedCell?_of_mem (hnames ▸ h.joined_nodup) he hc⟩

theorem listedCell?_eq_none (h : Accepts q schema p)
    (ht : (p.scope.base, d) :: rest ∈
      tuples (p.sources (withDocuments q.tables documents) q.joins))
    {name column : String} (hm : ¬ (name ∈ p.scope.tables.tail ∧ column ∈ p.columnsOf name)) :
    Tuple.listedCell? p rest name column = none := by
  by_cases hc : column ∈ p.columnsOf name
  · refine Tuple.listedCell?_of_notMem (fun hr => hm ⟨?_, hc⟩) column
    have hb : name ≠ p.scope.base := by
      rintro rfl
      exact h.base_notMem_joined (names_of_tuple ht ▸ hr)
    obtain ⟨e, he, rfl⟩ := List.mem_map.mp hr
    exact h.mem_tail_iff.mpr ⟨(mem_documents ht (List.mem_cons_of_mem _ he)).1, hb⟩
  · exact Tuple.listedCell?_of_not_listed hc

/-- The cell that is found for a routed reference. -/
theorem lookup?_of_routed (h : Accepts q schema p) (hd : schema.IsDotFree)
    (hkeys : ∀ d ∈ documents p.scope.base, ∀ key ∈ d.data.keys, Column.IsDotFree key)
    (ht : (p.scope.base, d) :: rest ∈
      tuples (p.sources (withDocuments q.tables documents) q.joins))
    {text table column : String}
    (hroute : routeColumn p.scope p.tables text = .ok (table, column)) :
    ∃ e, (p.shownTable d text table column, e) ∈ (p.scope.base, d) :: rest ∧
      (p.scope.lookup? (p.mergedRow ((p.scope.base, d) :: rest)) text).getD .null =
        e.data.cell column := by
  have hapart := h.isApart hd hkeys ht
  have hjoined : ∀ t ∈ p.scope.tables.tail, t ∈ rest.map Prod.fst :=
    fun t htail => names_of_tuple ht ▸ h.mem_joined_of_mem_tail htail
  have htail : ∀ t ∈ p.scope.tables.tail, Column.IsDotFree t :=
    fun t htail => h.isDotFree_table hd (h.mem_of_mem_tail htail)
  obtain ⟨t, htm, rfl, hcol, hsplit⟩ := routeColumn_eq_ok hroute
  have hlisted : column ∈ p.columnsOf t.name := h.columnsOf_eq htm ▸ hcol
  have hdot : Column.IsDotFree column := h.isDotFree_column hd hlisted
  rcases hsplit with ⟨name, hs, htable⟩ | ⟨hs, hfind⟩
  · obtain ⟨rfl, hname, hne, hcne⟩ := Column.split_eq_some hs
    rw [hapart.lookup?_qualified hname (htable ▸ hd.tables t (h.mem_schema htm)) hne hcne, htable]
    simp only [shownTable, hs]
    split
    · rename_i hm
      obtain ⟨e, he, hcell⟩ := h.exists_listedCell? ht hm.1 hm.2
      exact ⟨e, he, by rw [hcell]; rfl⟩
    · rename_i hm
      rw [h.listedCell?_eq_none ht hm, Option.none_or]
      by_cases hb : t.name = p.scope.base
      · refine ⟨d, by rw [hb]; exact List.mem_cons_self, ?_⟩
        rw [hb, Tuple.listedCell?_of_notMem hapart.base_notMem, if_pos rfl, Option.none_or,
          Tuple.IsApart.get?_mergedRow_of_isDotFree p _ _ _ hdot]
        rfl
      · have htt : t.name ∈ p.scope.tables.tail :=
          h.mem_tail_iff.mpr ⟨h.names_tables ▸ List.mem_map_of_mem htm, hb⟩
        obtain ⟨e, he, hcell⟩ := h.exists_listedCell? ht htt hlisted
        exact ⟨e, he, by rw [hcell]; rfl⟩
  · obtain rfl := Column.split_eq_none hs
    rw [hapart.lookup?_bare hs (Tuple.IsApart.get?_mergedRow_of_isDotFree p _ _ _ hdot) htail,
      findSome?_listedCell? column _ hjoined]
    simp only [shownTable, hs]
    split
    · rename_i hk
      refine ⟨d, List.mem_cons_self, ?_⟩
      obtain ⟨v, hv⟩ : ∃ v, d.data.get? column = some v :=
        Option.ne_none_iff_exists'.mp
          (mt (OrderedMap.get?_eq_none_iff d.data column).mp (not_not.mpr hk))
      rw [hv, Row.cell, hv]
      rfl
    · rename_i hk
      rw [(OrderedMap.get?_eq_none_iff d.data column).mpr hk, Option.none_or]
      cases hf : p.scope.tables.tail.find? fun t => column ∈ p.columnsOf t with
      | none =>
        refine ⟨d, List.mem_cons_self, ?_⟩
        rw [Row.cell, (OrderedMap.get?_eq_none_iff d.data column).mpr hk]
        rfl
      | some u =>
        have hu : column ∈ p.columnsOf u := by simpa using List.find?_some hf
        obtain ⟨e, he, hcell⟩ := h.exists_listedCell? ht (List.mem_of_find?_eq_some hf) hu
        exact ⟨e, he, by rw [Option.bind_some, hcell]; rfl⟩

end Accepts

/-- The item of a select list that is not `*` gives the result its cell. -/
theorem get?_projectRow (p : Plan) (q : Query) (row : Row) {text : String}
    (ht : text ∈ q.columns) (hs : "*" ∉ q.columns) :
    (p.projectRow q row).get? text = some ((p.scope.lookup? row text).getD .null) := by
  have hcell : ∀ e ∈ q.columns.flatMap (p.selectCells q.joins row), e.1 ∈ q.columns ∧
      e.2 = (p.scope.lookup? row e.1).getD .null := by
    intro e he
    obtain ⟨item, hi, he⟩ := List.mem_flatMap.mp he
    rw [selectCells, if_neg (ne_of_mem_of_not_mem hi hs)] at he
    obtain rfl := List.mem_singleton.mp he
    exact ⟨hi, rfl⟩
  refine OrderedMap.get?_insertAll_of_forall _ _ ?_ ?_
  · refine List.mem_map.mpr ⟨(text, (p.scope.lookup? row text).getD .null), ?_, rfl⟩
    refine List.mem_flatMap.mpr ⟨text, ht, ?_⟩
    rw [selectCells, if_neg (ne_of_mem_of_not_mem ht hs)]
    exact List.mem_singleton.mpr rfl
  · rintro e he rfl
    exact (hcell e he).2

/-- Which cell a reference shows in the row of a tuple, if WHERE routes it to `column` of `table`:
one of the table `shownTable`, which is `table` unless the reference is shadowed. -/
theorem selectCells_of_routed {s : MemoryStore} {project : String} {schema : ProjectSchema}
    {q : Query} {p : Plan} {rowCap : Nat} (hs : s.Reachable) (hids : s.HasColonFreeIds)
    (hschema : s.schema project = .ok schema) (hp : ofQuery q schema = .ok p)
    (hd : schema.IsDotFree)
    (hkeys : ∀ d ∈ s.documentsOf project p.scope.base, ∀ key ∈ d.data.keys,
      Column.IsDotFree key)
    {fetched : Fetched} (hf : p.fetchTables s.fetch rowCap p.tables = .ok fetched)
    {tuple : Tuple} (ht : tuple ∈ (tuples (p.sources fetched q.joins)).filter (p.combines q.joins))
    {text table column : String}
    (hroute : routeColumn p.scope p.tables text = .ok (table, column)) (hstar : text ≠ "*") :
    ∃ d e, tuple.document? p.scope.base = some d ∧
      (p.shownTable d text table column, e) ∈ tuple ∧
      p.selectCells q.joins (p.mergedRow tuple) text = [(text, e.data.cell column)] ∧
      (text ∈ q.columns → "*" ∉ q.columns →
        (p.projectRow q (p.mergedRow tuple)).get? text = some (e.data.cell column)) ∧
      (p.shownTable d text table column = table ↔ ¬ p.IsShadowed d text table column) := by
  have h := ofQuery_eq_ok_iff.mp hp
  obtain rfl := Except.ok.inj (hf.symm.trans (h.fetchTables_eq hs hids hschema rowCap))
  have ht := (List.mem_filter.mp ht).1
  have hselected : ∀ d ∈ s.selected project p rowCap p.scope.base, ∀ key ∈ d.data.keys,
      Column.IsDotFree key := fun d hm => hkeys d (MemoryStore.mem_of_mem_selected hm)
  obtain ⟨d, rest, rfl, -⟩ := Accepts.exists_eq_cons ht
  obtain ⟨e, he, hcell⟩ := h.lookup?_of_routed hd hselected ht hroute
  refine ⟨d, e, (h.isApart hd hselected ht).document?_base, he, ?_, ?_,
    h.shownTable_eq_iff d hroute⟩
  · rw [selectCells, if_neg hstar, hcell]
  · intro hm hs
    rw [get?_projectRow p q _ hm hs, hcell]

open Sample

def userNames : String := "SELECT u.name FROM users u JOIN orders ON u.id = user_id"

theorem selectCells_of_routed_userNames :
    ∃ d e, ((tuplesOf userNames).headD []).document? (planOf userNames).scope.base = some d ∧
      ((planOf userNames).shownTable d "u.name" "users" "name", e) ∈
        (tuplesOf userNames).headD [] ∧
      (planOf userNames).selectCells (Query.ofText userNames).joins
          ((planOf userNames).mergedRow ((tuplesOf userNames).headD [])) "u.name" =
        [("u.name", e.data.cell "name")] ∧
      ("u.name" ∈ (Query.ofText userNames).columns → "*" ∉ (Query.ofText userNames).columns →
        ((planOf userNames).projectRow (.ofText userNames)
          ((planOf userNames).mergedRow ((tuplesOf userNames).headD []))).get? "u.name" =
            some (e.data.cell "name")) ∧
      ((planOf userNames).shownTable d "u.name" "users" "name" = "users" ↔
        ¬ (planOf userNames).IsShadowed d "u.name" "users" "name") := by
  have hf : (planOf userNames).fetchTables shop.fetch 2 (planOf userNames).tables =
      .ok (fetchedOf userNames) := by decide +kernel
  exact selectCells_of_routed shop_reachable shop_hasColonFreeIds shop_schema (by decide +kernel)
    schema_isDotFree (by decide +kernel) hf (by decide +kernel) (by decide +kernel) (by decide)

/-- In some store without dots in names, a row of the statement shows under a reference another
cell than WHERE reads for it. -/
def ShowsAnother (sql text : String) : Prop :=
  ∃ (s : MemoryStore) (project : String) (schema : ProjectSchema) (p : Plan) (rowCap : Nat)
    (fetched : Fetched) (tuple : Tuple) (table column : String) (e : Document),
    s.Reachable ∧ s.HasColonFreeIds ∧ s.schema project = .ok schema ∧ schema.IsDotFree ∧
    (∀ t ∈ schema.tables, ∀ d ∈ s.documentsOf project t.name, ∀ key ∈ d.data.keys,
      Column.IsDotFree key) ∧
    ofQuery (.ofText sql) schema = .ok p ∧
    p.fetchTables s.fetch rowCap p.tables = .ok fetched ∧
    tuple ∈ (tuples (p.sources fetched (Query.ofText sql).joins)).filter
      (p.combines (Query.ofText sql).joins) ∧
    routeColumn p.scope p.tables text = .ok (table, column) ∧ (table, e) ∈ tuple ∧
    p.selectCells (Query.ofText sql).joins (p.mergedRow tuple) text ≠
      [(text, e.data.cell column)]

/-- Whether a tuple has a document of `table` and shows another cell under `text`. -/
def showsAnother (sql text table column : String) (tuple : Tuple) : Bool :=
  match tuple.document? table with
  | some e => (planOf sql).selectCells (Query.ofText sql).joins ((planOf sql).mergedRow tuple) text
      != [(text, e.data.cell column)]
  | none => false

theorem showsAnother_of_any {sql text table column : String}
    (h : ofQuery (.ofText sql) schema = .ok (planOf sql) ∧
      (planOf sql).fetchTables shop.fetch 2 (planOf sql).tables = .ok (fetchedOf sql) ∧
      routeColumn (planOf sql).scope (planOf sql).tables text = .ok (table, column) ∧
      (tuplesOf sql).any (showsAnother sql text table column) = true) :
    ShowsAnother sql text := by
  obtain ⟨hp, hf, hroute, hany⟩ := h
  obtain ⟨tuple, ht, hshow⟩ := List.any_eq_true.mp hany
  unfold showsAnother at hshow
  split at hshow
  · rename_i e he
    exact ⟨shop, "shop", schema, _, 2, _, tuple, table, column, e, shop_reachable,
      shop_hasColonFreeIds, shop_schema, schema_isDotFree, shop_keys_isDotFree, hp, hf, ht, hroute,
      Entries.mem_of_find? he, bne_iff_ne.mp hshow⟩
  · cases hshow

/-- An alias that is the name of a joined table, a document without a listed key, one with a key
that is not listed, and a column called `*`. -/
theorem shows_another_document :
    ShowsAnother "SELECT orders.id FROM users orders JOIN orders o ON orders.id = o.user_id"
        "orders.id" ∧
      ShowsAnother "SELECT name FROM users JOIN orders ON users.id = orders.user_id" "name" ∧
      ShowsAnother "SELECT user_id FROM users JOIN orders ON users.id = orders.user_id"
        "user_id" ∧
      ShowsAnother "SELECT * FROM users JOIN orders ON users.id = orders.user_id" "*" := by
  refine ⟨@showsAnother_of_any _ _ "users" "id" ?_, @showsAnother_of_any _ _ "users" "name" ?_,
    @showsAnother_of_any _ _ "orders" "user_id" ?_, @showsAnother_of_any _ _ "orders" "*" ?_⟩
  all_goals decide +kernel

end Plan
end DocumentSql
