/-
# Two tables joined either way round

`FROM a JOIN b ON a.x = b.y` and `FROM b JOIN a ON a.x = b.y` treat their tables
differently at every step: the documents of the first one keep their bare keys,
those of the second get keys `table.column` and only for listed columns; the ON
columns are put in another order; and a reference is looked for under other
keys. None of this shows in the rows. A reference with a table part shows the
cell of the document of the table it names (`Plan.Accepts.lookup?_of_names`), and
two documents are joined if the cells that ON names are equal, whichever of them
came first. So either order gives one row for each joined pair
(`Plan.Accepts.execute_joining`), and the rows of one are a permutation of the
rows of the other (`execute_joining_perm`).

A table part is what stands before the first dot. An alias with a dot is none,
and a reference behind one means something else in each of the two orders.

Key definitions: `Query.joining`, `Sql.TableRef.Names`,
`Sql.TableRef.IsApartFrom`, `Plan.namedRow`.
Key theorems: `tuples_pair_perm`, `Query.ofText_joining`,
`Plan.Accepts.joining_swap`, `Plan.Accepts.execute_joining`,
`execute_joining_perm`.
-/
import DocumentSql.Proofs.Select.OnOrder
import DocumentSql.Proofs.Select.Reference
import DocumentSql.Proofs.Sql.RoundTrip
import Mathlib.Data.List.Perm.Basic

namespace DocumentSql

/-! ### Pairs in either order -/

theorem flatMap_map_perm {α β γ : Type*} (f : α → β → γ) : ∀ (xs : List α) (ys : List β),
    (xs.flatMap fun x => ys.map (f x)).Perm (ys.flatMap fun y => xs.map fun x => f x y)
  | [], ys => by simp
  | x :: xs, ys => by
    simp only [List.flatMap_cons, List.map_cons]
    exact ((flatMap_map_perm f xs ys).append_left _).trans
      (List.map_append_flatMap_perm ys (f x) _)

theorem tuples_pair (a b : String) (as bs : List Document) :
    tuples [(a, as), (b, bs)] = as.flatMap fun d => bs.map fun e => [(a, d), (b, e)] := by
  simp [tuples, List.map_eq_flatMap, List.flatMap_assoc]

theorem exists_of_mem_pair {a b : String} {as bs : List Document} {tuple : Tuple}
    (h : tuple ∈ tuples [(a, as), (b, bs)]) :
    ∃ d ∈ as, ∃ e ∈ bs, tuple = [(a, d), (b, e)] := by
  rw [tuples_pair, List.mem_flatMap] at h
  obtain ⟨d, hd, h⟩ := h
  obtain ⟨e, he, rfl⟩ := List.mem_map.mp h
  exact ⟨d, hd, e, he, rfl⟩

/-- The pairs of documents of two tables are the same whichever table comes first. -/
theorem tuples_pair_perm (a b : String) (as bs : List Document) :
    (tuples [(a, as), (b, bs)]).Perm ((tuples [(b, bs), (a, as)]).map List.reverse) := by
  have hreverse : (tuples [(b, bs), (a, as)]).map List.reverse =
      bs.flatMap fun e => as.map fun d => [(a, d), (b, e)] := by
    rw [tuples_pair, List.map_flatMap]
    simp only [List.map_map]
    rfl
  rw [hreverse, tuples_pair]
  exact flatMap_map_perm (fun d e => [(a, d), (b, e)]) as bs

namespace Tuple

theorem document?_swap {a b : String} (h : a ≠ b) (d e : Document) (table : String) :
    document? [(a, d), (b, e)] table = document? [(b, e), (a, d)] table := by
  unfold document? Entries.find? Entries.find? Entries.find?
  by_cases ha : a = table
  · have hb : b ≠ table := fun hb => h (ha.trans hb.symm)
    rw [if_pos ha, if_neg hb, if_pos ha]
  · rw [if_neg ha, if_neg ha]

theorem matchesOn_congr {tuple tuple' : Tuple} {scope scope' : Scope}
    (hdocument : ∀ table, tuple.document? table = tuple'.document? table)
    (htable : ∀ name, scope.tableOf name = scope'.tableOf name) (on : JoinOn) :
    tuple.matchesOn scope on = tuple'.matchesOn scope' on := by
  unfold matchesOn operand?
  simp only [hdocument, htable]

end Tuple

/-! ### The two tables of a statement -/

namespace Sql.TableRef

/-- The name stands for the table: it is its alias or its own name. -/
def IsName (r : TableRef) (name : String) : Prop := r.aliasName = some name ∨ name = r.table

/-- The text is a column behind a name of the table. -/
def Names (r : TableRef) (text column : String) : Prop :=
  ∃ name, Column.HasParts text name column ∧ r.IsName name

/-- No name stands for both tables. -/
structure IsApartFrom (r r' : TableRef) : Prop where
  table_ne : r.table ≠ r'.table
  alias_ne : ∀ aliasName, r.aliasName = some aliasName → r'.aliasName ≠ some aliasName
  alias_ne_table : r.aliasName ≠ some r'.table
  table_ne_alias : r'.aliasName ≠ some r.table

theorem IsApartFrom.symm {r r' : TableRef} (h : r.IsApartFrom r') : r'.IsApartFrom r where
  table_ne := h.table_ne.symm
  alias_ne aliasName hr' hr := h.alias_ne aliasName hr hr'
  alias_ne_table := h.table_ne_alias
  table_ne_alias := h.alias_ne_table

end Sql.TableRef

/-- An ON clause matches a column of one table with one of the other. -/
def JoinOn.Links (on : JoinOn) (r r' : Sql.TableRef) : Prop :=
  ∃ x y, (r.Names on.left x ∧ r'.Names on.right y) ∨ (r'.Names on.left x ∧ r.Names on.right y)

theorem JoinOn.Links.symm {on : JoinOn} {r r' : Sql.TableRef} (h : on.Links r r') :
    on.Links r' r := by
  obtain ⟨x, y, h⟩ := h
  exact ⟨x, y, h.symm⟩

/-- The names that a table has and the keys of its documents are without dots. -/
structure MemoryStore.IsDotFreeTable (s : MemoryStore) (project : String) (t : TableSchema) :
    Prop where
  name : Column.IsDotFree t.name
  columns : ∀ c ∈ t.columns, Column.IsDotFree c
  keys : ∀ d ∈ s.documentsOf project t.name, ∀ key ∈ d.data.keys, Column.IsDotFree key

open Sql (TableRef)

namespace Query

/-- `SELECT columns FROM first JOIN second ON on WHERE conditions`. -/
def joining (first second : TableRef) (on : JoinOn) (columns : List String)
    (conditions : List Condition) : Query :=
  { kind := .select
    tables := [first.table, second.table]
    columns
    conditions
    joins := [⟨.inner, second.table, second.aliasName, on⟩]
    aliases := Sql.aliasMap [first] [⟨.inner, second.table, second.aliasName, on⟩] }

variable {first second : TableRef} {on : JoinOn} {columns : List String}
variable {conditions : List Condition}

/-- The statement is what its text is read as. -/
theorem ofText_joining (items : List Sql.Name) (a b : Sql.Source) (left operator right : Sql.Name)
    (tests : Option Sql.Tests) (hne : a.ref.table ≠ b.ref.table) :
    ofText (Sql.Select.print
      { items := items.map .column
        first := a
        others := []
        joins := [⟨.plain, b, left, operator, right⟩]
        tests
        groupBy := []
        having := none
        orderBy := []
        limit := none
        offset := none
        closing := []
        closing_isLexeme := List.forall_mem_nil _
        closing_head := by decide }) =
      joining a.ref b.ref ⟨left.text, operator.text, right.text⟩ (items.map (·.text))
        ((tests.map (·.conditions)).getD []) := by
  have htables : Sql.distinct [a.ref.table, b.ref.table] = [a.ref.table, b.ref.table] := by
    exact Sql.distinct_of_nodup (by simpa using hne)
  have haggregates : (items.map Sql.Item.column).filterMap (·.item.aggregate?) = [] := by
    rw [List.filterMap_map, List.filterMap_eq_nil_iff]
    exact fun _ _ => rfl
  have hcolumns : (items.map Sql.Item.column).map (·.item.outputName) = items.map (·.text) := by
    rw [List.map_map]
    rfl
  rw [ofText_print, Sql.Select.query, joining, hcolumns, haggregates]
  exact congrArg (fun tables => { joining a.ref b.ref _ _ _ with tables }) htables

/-- The alias of a table stands for it. -/
theorem get?_aliases_joining (first second : TableRef) (on : JoinOn) (columns : List String)
    (conditions : List Condition) (name : String) :
    (joining first second on columns conditions).aliases.get? name =
      if second.aliasName = some name then some second.table
      else if first.aliasName = some name then some first.table else none := by
  have hinsert : ∀ (m : OrderedMap String String) (r : TableRef),
      (m.insertAll (r.aliasName.map (·, r.table)).toList).get? name =
        if r.aliasName = some name then some r.table else m.get? name := by
    intro m r
    cases r.aliasName with
    | none => simp [OrderedMap.insertAll]
    | some a => simp [OrderedMap.insertAll, OrderedMap.get?_insert]
  have haliases : (joining first second on columns conditions).aliases =
      (OrderedMap.empty.insertAll (first.aliasName.map (·, first.table)).toList).insertAll
        (second.aliasName.map (·, second.table)).toList := by
    rw [← OrderedMap.insertAll_append]
    obtain ⟨a, firstAlias⟩ := first
    obtain ⟨b, secondAlias⟩ := second
    cases firstAlias <;> cases secondAlias <;> rfl
  rw [haliases, hinsert, hinsert, OrderedMap.get?_empty]

section Names

variable (h : first.IsApartFrom second)
include h

/-- A name of a table stands for that table and no other one. -/
theorem tableNamed_first {name : String} (hname : first.IsName name) :
    (joining first second on columns conditions).tableNamed name = first.table := by
  have hsecond : second.aliasName ≠ some name := by
    rcases hname with hname | rfl
    · exact h.alias_ne name hname
    · exact h.table_ne_alias
  unfold tableNamed
  rw [get?_aliases_joining, if_neg hsecond]
  split
  · rfl
  · rename_i hfirst
    exact hname.resolve_left hfirst

theorem tableNamed_joining_swap (name : String) :
    (joining first second on columns conditions).tableNamed name =
      (joining second first on columns conditions).tableNamed name := by
  unfold tableNamed
  rw [get?_aliases_joining, get?_aliases_joining]
  by_cases hfirst : first.aliasName = some name
  · rw [if_neg (h.alias_ne name hfirst), if_pos hfirst, if_pos hfirst]
  · rw [if_neg hfirst, if_neg hfirst]

theorem tableNamed_second {name : String} (hname : second.IsName name) :
    (joining first second on columns conditions).tableNamed name = second.table := by
  rw [tableNamed_joining_swap h]
  exact tableNamed_first h.symm hname

/-- No alias is the name of the other table. -/
theorem eq_of_mem_aliases_joining :
    ∀ e ∈ (joining first second on columns conditions).aliases.entries,
      e.1 ∈ (joining first second on columns conditions).tables → e.1 = e.2 := by
  rintro ⟨name, table⟩ he hm
  have hget := (OrderedMap.get?_eq_some_iff _ _ _).mpr he
  have htable : (joining first second on columns conditions).tableNamed name = table := by
    rw [tableNamed, hget]
    rfl
  rcases List.mem_cons.mp hm with hname | hname
  · rw [← htable, tableNamed_first h (.inr hname)]
    exact hname
  · have hsecond := List.mem_singleton.mp hname
    rw [← htable, tableNamed_second h (.inr hsecond)]
    exact hsecond

end Names

end Query

/-! ### The checks in either order -/

theorem find?_pair_swap {α : Type*} {f : α → Bool} {x y : α} (h : f x = true → f y = false) :
    [x, y].find? f = [y, x].find? f := by
  cases hx : f x with
  | true => simp [hx, h hx]
  | false => cases hy : f y <;> simp [hx, hy]

theorem routeConditions_congr {scope scope' : Scope} {tables tables' : List TableSchema} :
    ∀ {conditions : List Condition}, (∀ c ∈ conditions,
        routeColumn scope tables c.column = routeColumn scope' tables' c.column) →
      routeConditions scope tables conditions = routeConditions scope' tables' conditions
  | [], _ => rfl
  | c :: conditions, h => by
    obtain ⟨hc, hrest⟩ := List.forall_mem_cons.mp h
    rw [routeConditions, routeConditions, hc, routeConditions_congr hrest]

namespace Plan

/-- The cell that a reference with a table part names, null if the document does not have it. -/
def namedCell (p : Plan) (tuple : Tuple) (text : String) : Scalar :=
  match Column.split text with
  | (some name, column) => tuple.cell (p.scope.tableOf name) column
  | (none, _) => .null

/-- The row of the cells that the items of a select list name. -/
def namedRow (p : Plan) (columns : List String) (tuple : Tuple) : Row :=
  .ofList (columns.map fun item => (item, p.namedCell tuple item))

namespace Accepts

variable {schema : ProjectSchema} {p : Plan}

theorem tableOf_eq {q : Query} (h : Accepts q schema p) (name : String) :
    p.scope.tableOf name = q.tableNamed name := by
  rw [h.scope]
  rfl

section Joining

variable {first second : TableRef} {on : JoinOn} {columns : List String}
variable {conditions : List Condition}
variable (h : Accepts (.joining first second on columns conditions) schema p)
variable (hapart : first.IsApartFrom second)
include h

theorem base_joining : p.scope.base = first.table := h.base_eq

/-- The schemas of the two tables. -/
theorem exists_tables_joining : ∃ ta tb, p.tables = [ta, tb] ∧ ta.name = first.table ∧
    tb.name = second.table ∧ schema.table? first.table = some ta ∧
    schema.table? second.table = some tb := by
  have hnames := h.names_tables
  obtain ⟨ta, rest, hp, hta, hrest⟩ := List.map_eq_cons_iff.mp hnames
  obtain ⟨tb, rest, rfl, htb, hnil⟩ := List.map_eq_cons_iff.mp hrest
  obtain rfl := List.map_eq_nil_iff.mp hnil
  have hfirst := h.table?_of_mem (t := ta) (hp ▸ List.mem_cons_self)
  have hsecond := h.table?_of_mem (t := tb) (hp ▸ List.mem_cons_of_mem _ List.mem_cons_self)
  exact ⟨ta, tb, hp, hta, htb, hta ▸ hfirst, htb ▸ hsecond⟩

include hapart in
/-- A condition with a table part is routed to the same table in either order. -/
theorem routeColumn_swap {text name column : String}
    (hparts : Column.HasParts text name column) :
    routeColumn ⟨[second.table, first.table],
        (Query.joining second first on columns conditions).aliases⟩ p.tables.reverse text =
      routeColumn p.scope p.tables text := by
  obtain ⟨ta, tb, hp, hta, htb, -, -⟩ := h.exists_tables_joining
  have htable : Scope.tableOf ⟨[second.table, first.table],
      (Query.joining second first on columns conditions).aliases⟩ name = p.scope.tableOf name :=
    (Query.tableNamed_joining_swap hapart name).symm.trans (h.tableOf_eq name).symm
  have hfind : [tb, ta].find? (·.name == p.scope.tableOf name) =
      [ta, tb].find? (·.name == p.scope.tableOf name) := by
    refine find?_pair_swap fun hb => ?_
    rw [beq_iff_eq] at hb
    rw [← hb, beq_eq_false_iff_ne, hta, htb]
    exact hapart.table_ne
  unfold routeColumn
  rw [Column.hasParts_iff.mp hparts, hp]
  simp only [List.reverse_cons, List.reverse_nil, List.nil_append, List.singleton_append, htable,
    hfind]

include hapart in
/-- A join that is accepted is accepted the other way round, with the same predicates. -/
theorem joining_swap (hconditions : ∀ c ∈ conditions, ∃ name column,
      Column.HasParts c.column name column) :
    Accepts (.joining second first on columns conditions) schema
      ⟨⟨[second.table, first.table],
        (Query.joining second first on columns conditions).aliases⟩, p.tables.reverse,
        p.routed⟩ where
  valid := rfl
  kind := rfl
  joins := by
    have hjoins := ((checkJoins_eq_ok_iff _ _).mp h.joins).2.2
    refine (checkJoins_eq_ok_iff _ _).mpr ⟨?_, List.nodup_singleton _, ?_⟩
    · intro j hj
      obtain rfl := List.mem_singleton.mp hj
      simpa [Query.joining] using hapart.table_ne
    · intro j hj
      obtain rfl := List.mem_singleton.mp hj
      exact ⟨rfl, (hjoins _ (List.mem_singleton.mpr rfl)).2⟩
  conditions := h.conditions
  nonempty := List.cons_ne_nil _ _
  closed := (crossJoined?_eq_none_iff _ _).mpr fun t ht => ht
  scope := rfl
  tables := by
    obtain ⟨ta, tb, hp, -, -, hta, htb⟩ := h.exists_tables_joining
    simp only [Query.joining, findTables, hta, htb, hp]
    rfl
  routed := by
    rw [← h.routed]
    refine routeConditions_congr fun c hc => ?_
    obtain ⟨name, column, hparts⟩ := hconditions c hc
    exact h.routeColumn_swap hapart hparts

/-! ### The rows in either order -/

include hapart

theorem tableOf_first {name : String} (hname : first.IsName name) :
    p.scope.tableOf name = first.table :=
  (h.tableOf_eq name).trans (Query.tableNamed_first hapart hname)

theorem tableOf_second {name : String} (hname : second.IsName name) :
    p.scope.tableOf name = second.table :=
  (h.tableOf_eq name).trans (Query.tableNamed_second hapart hname)

/-- No key of the one table meets a key of the other. -/
theorem isApart_joining {d : Document} (hfirst : Column.IsDotFree first.table)
    (hsecond : Column.IsDotFree second.table) (hkeys : ∀ key ∈ d.data.keys, Column.IsDotFree key)
    (e : Document) : Tuple.IsApart p.scope.base d [(second.table, e)] where
  base_dotFree := h.base_joining ▸ hfirst
  keys_dotFree := hkeys
  names_dotFree e he := by
    obtain rfl := List.mem_singleton.mp he
    exact hsecond
  base_notMem hm := hapart.table_ne (h.base_joining.symm.trans (List.mem_singleton.mp hm))
  names_nodup := List.nodup_singleton _

/-- The ON clause names the second table and, as an earlier one, the first. -/
theorem namesEarlier_joining {own other x y : String} (hown : second.Names own y)
    (hother : first.Names other x) :
    p.NamesEarlier [p.scope.base] ⟨.inner, second.table, second.aliasName, on⟩ own other := by
  obtain ⟨name, hparts, hname⟩ := hown
  obtain ⟨name', hparts', hname'⟩ := hother
  have htable : p.scope.tableOf name' = p.scope.base :=
    (h.tableOf_first hapart hname').trans h.base_joining.symm
  refine ⟨Join.isNamedBy_iff.mpr ⟨name, y, hparts, hname⟩, name', ?_, ?_, ?_⟩
  · rw [Column.hasParts_iff.mp hparts']
  · exact List.mem_singleton.mpr htable
  · exact fun hne => absurd htable hne

/-- Two documents are joined if the cells that ON names are equal. -/
theorem combines_joining (hon : on.Links first second) {d e : Document}
    (hkeys : Tuple.IsApart p.scope.base d [(second.table, e)]) :
    p.combines (Query.joining first second on columns conditions).joins
        [(p.scope.base, d), (second.table, e)] =
      Tuple.matchesOn [(p.scope.base, d), (second.table, e)] p.scope on := by
  have hstand : p.NamesStandFor ⟨.inner, second.table, second.aliasName, on⟩ :=
    ⟨h.tableOf_second hapart (.inr rfl), fun _ ha => h.tableOf_second hapart (.inl ha)⟩
  have hearlier : p.OnEarlier [p.scope.base]
      (Query.joining first second on columns conditions).joins := by
    obtain ⟨x, y, ⟨hleft, hright⟩ | ⟨hleft, hright⟩⟩ := hon
    · exact ⟨.inr (h.namesEarlier_joining hapart hright hleft), trivial⟩
    · exact ⟨.inl (h.namesEarlier_joining hapart hleft hright), trivial⟩
  have hall := hkeys.combines_eq rfl (fun j hj => List.mem_singleton.mp hj ▸ hstand) hearlier
  exact hall.trans (Bool.and_true _)

/-- What is looked up for a name of one of the tables. -/
theorem lookup?_joining {d e : Document}
    (hkeys : Tuple.IsApart p.scope.base d [(second.table, e)]) {text name column : String}
    (hparts : Column.HasParts text name column)
    (htable : Column.IsDotFree (p.scope.tableOf name)) :
    p.scope.lookup? (p.mergedRow [(p.scope.base, d), (second.table, e)]) text =
      (Tuple.listedCell? p [(second.table, e)] (p.scope.tableOf name) column).or
        (if p.scope.tableOf name = p.scope.base then
          (p.mergedRow [(p.scope.base, d), (second.table, e)]).get? column else none) := by
  have hmem : ∀ x ∈ [(second.table, e)],
      x.1 ∈ (Query.joining first second on columns conditions).tables := by
    intro x hx
    obtain rfl := List.mem_singleton.mp hx
    exact List.mem_cons_of_mem _ List.mem_cons_self
  rw [hparts.text_eq]
  exact h.lookup?_of_tableOf (Query.eq_of_mem_aliases_joining hapart) hkeys hmem hparts.dotFree
    htable hparts.name_ne hparts.column_ne

/-- A column of the first table shows the cell of its document. -/
theorem lookup?_first {d e : Document} (hkeys : Tuple.IsApart p.scope.base d [(second.table, e)])
    {text column : String} (htext : first.Names text column) (hdot : Column.IsDotFree column) :
    (p.scope.lookup? (p.mergedRow [(p.scope.base, d), (second.table, e)]) text).getD .null =
      p.namedCell [(p.scope.base, d), (second.table, e)] text := by
  obtain ⟨name, hparts, hname⟩ := htext
  have htable : p.scope.tableOf name = p.scope.base :=
    (h.tableOf_first hapart hname).trans h.base_joining.symm
  rw [h.lookup?_joining hapart hkeys hparts (htable ▸ hkeys.base_dotFree), htable, if_pos rfl,
    Tuple.listedCell?_of_notMem hkeys.base_notMem, Option.none_or,
    Tuple.IsApart.get?_mergedRow_of_isDotFree p _ _ _ hdot]
  simp only [namedCell, Column.hasParts_iff.mp hparts, htable, Tuple.cell, hkeys.document?_base]
  rfl

/-- A listed column of the second table shows the cell of its document. -/
theorem lookup?_second {d e : Document} (hkeys : Tuple.IsApart p.scope.base d [(second.table, e)])
    {text column : String} (htext : second.Names text column)
    (hlisted : column ∈ p.columnsOf second.table) :
    (p.scope.lookup? (p.mergedRow [(p.scope.base, d), (second.table, e)]) text).getD .null =
      p.namedCell [(p.scope.base, d), (second.table, e)] text := by
  obtain ⟨name, hparts, hname⟩ := htext
  have hmem : (second.table, e) ∈ [(second.table, e)] := List.mem_cons_self
  have htable := h.tableOf_second hapart hname
  rw [h.lookup?_joining hapart hkeys hparts (htable ▸ hkeys.names_dotFree _ hmem), htable,
    Tuple.listedCell?_of_mem hkeys.names_nodup hmem hlisted, Option.some_or]
  simp only [namedCell, Column.hasParts_iff.mp hparts, htable, Tuple.cell,
    hkeys.document?_of_mem (List.mem_cons_of_mem _ hmem)]
  rfl

/-- The row of two documents is the one that the items name. -/
theorem projectRow_joining {d e : Document} {ta tb : TableSchema}
    (htb : schema.table? second.table = some tb) (hdots : ∀ c ∈ ta.columns, Column.IsDotFree c)
    (hcolumns : ∀ item ∈ columns, (∃ c ∈ ta.columns, first.Names item c) ∨
      ∃ c ∈ tb.columns, second.Names item c)
    (hkeys : Tuple.IsApart p.scope.base d [(second.table, e)]) :
    p.projectRow (.joining first second on columns conditions)
        (p.mergedRow [(p.scope.base, d), (second.table, e)]) =
      p.namedRow columns [(p.scope.base, d), (second.table, e)] := by
  have hlisted : p.columnsOf second.table = tb.columns := by
    obtain ⟨_, tb', hp, -, hname, -, htb'⟩ := h.exists_tables_joining
    obtain rfl := Option.some.inj (htb'.symm.trans htb)
    rw [← hname, h.columnsOf_eq (hp ▸ List.mem_cons_of_mem _ List.mem_cons_self)]
  have hcells : ∀ item ∈ columns,
      p.selectCells (Query.joining first second on columns conditions).joins
          (p.mergedRow [(p.scope.base, d), (second.table, e)]) item =
        [(item, p.namedCell [(p.scope.base, d), (second.table, e)] item)] := by
    intro item hm
    have hstar : ∀ name column, Column.HasParts item name column → item ≠ "*" := by
      rintro name column hparts rfl
      exact Column.not_isDotFree_qualified name column (hparts.text_eq ▸ by decide)
    rcases hcolumns item hm with ⟨c, hc, hnames⟩ | ⟨c, hc, hnames⟩
    · have hcell := h.lookup?_first hapart hkeys hnames (hdots c hc)
      obtain ⟨name, hparts, -⟩ := hnames
      rw [selectCells, if_neg (hstar name c hparts), hcell]
    · have hcell := h.lookup?_second hapart hkeys hnames (hlisted ▸ hc)
      obtain ⟨name, hparts, -⟩ := hnames
      rw [selectCells, if_neg (hstar name c hparts), hcell]
  unfold projectRow namedRow
  rw [List.map_eq_flatMap]
  exact congrArg OrderedMap.ofList (List.flatMap_congr hcells)

omit hapart in
/-- The documents that a join of two tables combines. -/
theorem sources_joining (documents : String → List Document) :
    p.sources (withDocuments [first.table, second.table] documents)
        (Query.joining first second on columns conditions).joins =
      [(first.table, documents first.table), (second.table, documents second.table)] := by
  unfold sources
  rw [h.base_joining, documentsOf_withDocuments, if_pos List.mem_cons_self]
  simp [Query.joining, documentsOf_withDocuments]

/-- The rows of a join of two tables: one for each pair of documents for which ON finds equal
cells. -/
theorem execute_joining {s : MemoryStore} {project : String} {ta tb : TableSchema}
    (hs : s.Reachable) (hids : s.HasColonFreeIds) (hschema : s.schema project = .ok schema)
    (hta : schema.table? first.table = some ta) (htb : schema.table? second.table = some tb)
    (hfirst : s.IsDotFreeTable project ta) (hsecond : s.IsDotFreeTable project tb)
    (hon : on.Links first second)
    (hcolumns : ∀ item ∈ columns, (∃ c ∈ ta.columns, first.Names item c) ∨
      ∃ c ∈ tb.columns, second.Names item c) (rowCap : Nat) :
    execute (.joining first second on columns conditions) schema s.fetch rowCap =
      .ok (((tuples [(first.table, s.selected project p rowCap first.table),
          (second.table, s.selected project p rowCap second.table)]).filter
        fun tuple => tuple.matchesOn p.scope on).map (p.namedRow columns)) := by
  have hbase := h.base_joining
  have hname : ta.name = first.table := (mem_of_table? hta).2
  have hname' : tb.name = second.table := (mem_of_table? htb).2
  have hkeys : ∀ d ∈ s.selected project p rowCap first.table, ∀ e,
      Tuple.IsApart p.scope.base d [(second.table, e)] := by
    intro d hd e
    have hd' := MemoryStore.mem_of_mem_selected hd
    rw [← hname] at hd'
    exact h.isApart_joining hapart (hname ▸ hfirst.name) (hname' ▸ hsecond.name)
      (hfirst.keys d hd') e
  have hgroups : (Query.joining first second on columns conditions).isAggregate = false := rfl
  rw [h.execute_eq hs hids hschema, resultRows, hgroups, if_neg Bool.false_ne_true, joinedRows_eq,
    List.map_map]
  show Except.ok (((tuples (p.sources (withDocuments [first.table, second.table] _) _)).filter
    _).map _) = _
  rw [h.sources_joining]
  have hcombines : ∀ tuple ∈ tuples [(first.table, s.selected project p rowCap first.table),
        (second.table, s.selected project p rowCap second.table)],
      p.combines (Query.joining first second on columns conditions).joins tuple =
        tuple.matchesOn p.scope on := by
    intro tuple ht
    obtain ⟨d, hd, e, -, rfl⟩ := exists_of_mem_pair ht
    exact hbase ▸ h.combines_joining hapart hon (hkeys d hd e)
  rw [List.filter_congr hcombines]
  refine congrArg Except.ok (List.map_congr_left fun tuple ht => ?_)
  obtain ⟨d, hd, e, -, rfl⟩ := exists_of_mem_pair (List.mem_filter.mp ht).1
  exact hbase ▸ h.projectRow_joining hapart htb hfirst.columns hcolumns (hkeys d hd e)

end Joining
end Accepts
end Plan

theorem Plan.namedRow_swap {p p' : Plan} {a b : String} (hne : a ≠ b)
    (htable : ∀ name, p.scope.tableOf name = p'.scope.tableOf name) (columns : List String)
    (d e : Document) :
    p.namedRow columns [(a, d), (b, e)] = p'.namedRow columns [(b, e), (a, d)] := by
  unfold namedRow namedCell Tuple.cell
  simp only [htable, Tuple.document?_swap hne d e]

/-- Pairs of documents give the same rows in either order. -/
theorem Plan.namedRows_perm {p p' : Plan} {a b : String} (hne : a ≠ b)
    (htable : ∀ name, p.scope.tableOf name = p'.scope.tableOf name) (on : JoinOn)
    (columns : List String) (as bs : List Document) :
    (((tuples [(a, as), (b, bs)]).filter fun tuple => tuple.matchesOn p.scope on).map
        (p.namedRow columns)).Perm
      (((tuples [(b, bs), (a, as)]).filter fun tuple => tuple.matchesOn p'.scope on).map
        (p'.namedRow columns)) := by
  have hmatch : ∀ tuple ∈ tuples [(b, bs), (a, as)],
      Tuple.matchesOn tuple.reverse p.scope on = tuple.matchesOn p'.scope on := by
    intro tuple ht
    obtain ⟨e, -, d, -, rfl⟩ := exists_of_mem_pair ht
    exact Tuple.matchesOn_congr (Tuple.document?_swap hne d e) htable on
  have hrow : ∀ tuple ∈ (tuples [(b, bs), (a, as)]).filter
        (fun tuple => tuple.matchesOn p'.scope on),
      p.namedRow columns tuple.reverse = p'.namedRow columns tuple := by
    intro tuple ht
    obtain ⟨e, -, d, -, rfl⟩ := exists_of_mem_pair (List.mem_filter.mp ht).1
    exact namedRow_swap hne htable columns d e
  have hpairs := ((tuples_pair_perm a b as bs).filter fun tuple : Tuple =>
    tuple.matchesOn p.scope on).map (p.namedRow columns)
  refine hpairs.trans (.of_eq ?_)
  rw [List.filter_map, List.map_map, ← List.map_congr_left hrow, ← List.filter_congr hmatch]
  rfl

/-- **A join of two tables gives the same rows in either order.** On a project of a store that comes
about, take two tables whose names, columns and keys have no dots, and a join of them on `a.x = b.y`
in which all conditions and all items of the select list are prefixed, where a prefix is what stands
before the first dot and no name stands for both tables. If the join of `a` with `b` is accepted,
then the join of `b` with `a` is answered too, and its rows are a permutation of the other ones,
whatever the cap. -/
theorem execute_joining_perm {s : MemoryStore} (hs : s.Reachable) (hids : s.HasColonFreeIds)
    {project : String} {schema : ProjectSchema} (hschema : s.schema project = .ok schema)
    {first second : TableRef} {ta tb : TableSchema} (hta : schema.table? first.table = some ta)
    (htb : schema.table? second.table = some tb) (hfirst : s.IsDotFreeTable project ta)
    (hsecond : s.IsDotFreeTable project tb) (hapart : first.IsApartFrom second)
    {left right x y : String} (hx : first.Names left x) (hy : second.Names right y)
    {columns : List String} (hcolumns : ∀ item ∈ columns,
      (∃ c ∈ ta.columns, first.Names item c) ∨ ∃ c ∈ tb.columns, second.Names item c)
    {conditions : List Condition} (hconditions : ∀ c ∈ conditions, ∃ name column,
      Column.HasParts c.column name column) {p : Plan}
    (hp : Plan.ofQuery (.joining first second ⟨left, "=", right⟩ columns conditions) schema = .ok p)
    (rowCap : Nat) :
    ∃ rows rows',
      execute (.joining first second ⟨left, "=", right⟩ columns conditions) schema s.fetch rowCap =
        .ok rows ∧
      execute (.joining second first ⟨left, "=", right⟩ columns conditions) schema s.fetch rowCap =
        .ok rows' ∧
      rows.Perm rows' := by
  have h := Plan.ofQuery_eq_ok_iff.mp hp
  have h' := h.joining_swap hapart hconditions
  have hon : JoinOn.Links ⟨left, "=", right⟩ first second := ⟨x, y, .inl ⟨hx, hy⟩⟩
  have hcolumns' : ∀ item ∈ columns,
      (∃ c ∈ tb.columns, second.Names item c) ∨ ∃ c ∈ ta.columns, first.Names item c :=
    fun item hm => (hcolumns item hm).symm
  refine ⟨_, _, h.execute_joining hapart hs hids hschema hta htb hfirst hsecond hon hcolumns rowCap,
    h'.execute_joining hapart.symm hs hids hschema htb hta hsecond hfirst hon.symm hcolumns' rowCap,
    ?_⟩
  have htable : ∀ name, p.scope.tableOf name = _ := fun name =>
    (h.tableOf_eq name).trans
      ((Query.tableNamed_joining_swap hapart name).trans (h'.tableOf_eq name).symm)
  exact Plan.namedRows_perm hapart.table_ne htable _ columns _ _

namespace Sample

theorem shop_isDotFreeTable {t : TableSchema} (ht : t ∈ schema.tables) :
    shop.IsDotFreeTable "shop" t where
  name := schema_isDotFree.tables t ht
  columns := schema_isDotFree.columns t ht
  keys := shop_keys_isDotFree t ht

/-- Users with their orders, and the same the other way round. -/
def usersOrders : Query :=
  .joining ⟨"users", some "u"⟩ ⟨"orders", none⟩ ⟨"u.id", "=", "orders.user_id"⟩
    ["u.name", "orders.id"] [⟨"u.id", .less, .int 9, none⟩]

def ordersUsers : Query :=
  .joining ⟨"orders", none⟩ ⟨"users", some "u"⟩ ⟨"u.id", "=", "orders.user_id"⟩
    ["u.name", "orders.id"] [⟨"u.id", .less, .int 9, none⟩]

theorem execute_joining_perm_usersOrders :
    .ofText
      "SELECT u.name, orders.id FROM users u JOIN orders ON u.id = orders.user_id WHERE u.id < 9" =
        usersOrders ∧
    ∃ rows rows', execute usersOrders schema shop.fetch 2 = .ok rows ∧
      execute ordersUsers schema shop.fetch 2 = .ok rows' ∧ rows.Perm rows' := by
  have hu : ∀ {text} (column), Column.split text = (some "u", column) →
      TableRef.Names ⟨"users", some "u"⟩ text column :=
    fun _ h => ⟨"u", Column.hasParts_iff.mpr h, .inl rfl⟩
  have ho : ∀ {text} (column), Column.split text = (some "orders", column) →
      TableRef.Names ⟨"orders", none⟩ text column :=
    fun _ h => ⟨"orders", Column.hasParts_iff.mpr h, .inr rfl⟩
  have hplan : Plan.ofQuery usersOrders schema = .ok
      ⟨⟨["users", "orders"], .ofList [("u", "users")]⟩,
        [⟨"shop:users", "users", ["id", "name"]⟩,
          ⟨"shop:orders", "orders", ["id", "user_id", "name", "*"]⟩],
        [⟨"users", ⟨"id", .less, .int 9⟩⟩]⟩ := by decide +kernel
  have hapart : TableRef.IsApartFrom ⟨"users", some "u"⟩ ⟨"orders", none⟩ :=
    ⟨by decide, fun _ _ h => (by cases h), by decide, by decide⟩
  refine ⟨by decide +kernel, ?_⟩
  refine execute_joining_perm shop_reachable shop_hasColonFreeIds shop_schema rfl rfl
    (shop_isDotFreeTable (by decide)) (shop_isDotFreeTable (by decide)) hapart
    (hu "id" (by decide)) (ho "user_id" (by decide)) ?_ ?_ hplan 2
  · intro item hm
    rcases List.mem_cons.mp hm with rfl | hm
    · exact .inl ⟨"name", by decide, hu "name" (by decide)⟩
    · obtain rfl := List.mem_singleton.mp hm
      exact .inr ⟨"id", by decide, ho "id" (by decide)⟩
  · intro c hc
    obtain rfl := List.mem_singleton.mp hc
    exact ⟨"u", "id", Column.hasParts_iff.mpr (by decide)⟩

/-- Behind an alias with a dot the order counts: the table part of `u.v.id` is `u`, which is no name
of the users, so it is taken for a column of the table that comes first. -/
theorem not_perm_of_dotted_alias :
    TableRef.IsApartFrom ⟨"users", some "u.v"⟩ ⟨"orders", some "o"⟩ ∧
    ¬ ∃ rows rows',
      execute (.joining ⟨"users", some "u.v"⟩ ⟨"orders", some "o"⟩ ⟨"u.v.id", "=", "o.user_id"⟩
          ["o.id"] []) schema shop.fetch 2 = .ok rows ∧
        execute (.joining ⟨"orders", some "o"⟩ ⟨"users", some "u.v"⟩ ⟨"u.v.id", "=", "o.user_id"⟩
          ["o.id"] []) schema shop.fetch 2 = .ok rows' ∧
        rows.Perm rows' := by
  have hfirst : execute (.joining ⟨"users", some "u.v"⟩ ⟨"orders", some "o"⟩
      ⟨"u.v.id", "=", "o.user_id"⟩ ["o.id"] []) schema shop.fetch 2 =
      .ok [.ofList [("o.id", .int 7)], .ofList [("o.id", .int 8)]] := by decide +kernel
  have hsecond : execute (.joining ⟨"orders", some "o"⟩ ⟨"users", some "u.v"⟩
      ⟨"u.v.id", "=", "o.user_id"⟩ ["o.id"] []) schema shop.fetch 2 = .ok [] := by decide +kernel
  refine ⟨⟨by decide, ?_, by decide, by decide⟩, ?_⟩
  · rintro aliasName ha hb
    obtain rfl := Option.some.inj ha
    exact absurd (Option.some.inj hb) (by decide)
  · rintro ⟨rows, rows', hrows, hrows', hperm⟩
    rw [hfirst] at hrows
    rw [hsecond] at hrows'
    obtain rfl := Except.ok.inj hrows
    obtain rfl := Except.ok.inj hrows'
    exact absurd hperm.length_eq (by decide)

end Sample
end DocumentSql
