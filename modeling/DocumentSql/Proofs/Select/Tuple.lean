/-
# Joined rows as tuples of documents

A row that reaches grouping or the select list stands for one document of the
base table and one of each joined table: a `Tuple`. `tuples` lists all choices,
those of the first table slowest, and `Plan.mergedRow` is the row that a choice
turns into. The fold of nested loops gives exactly the merged rows of the tuples
in which every document joins what is before it, in the order of `tuples`
(`Plan.joinedRows_eq`).

What a merged row holds is said key by key: under a name without dots the cell
of the base document, under `table.column` the cell of that table's document,
null if the document has none. Names with dots would let these keys meet, so the
statements ask for names without them (`Tuple.IsApart`).

Key definitions: `Tuple`, `tuples`, `Plan.mergedRow`, `Plan.combines`, `Tuple.IsApart`.
Key theorems: `mem_tuples_iff`, `Plan.joinedRows_eq`,
`Tuple.IsApart.get?_mergedRow_of_isDotFree`, `Tuple.IsApart.get?_mergedRow_of_mem`,
`cell_mergedRow_keyOf`.
-/
import DocumentSql.Select.Run
import DocumentSql.Proofs.Lists
import DocumentSql.Proofs.OrderedMap
import DocumentSql.Proofs.Select.Column

namespace DocumentSql

/-- One document for each table, under the name of the table. -/
abbrev Tuple := List (String × Document)

/-- All tuples that take one document from each table, in lexicographic order. -/
def tuples : List (String × List Document) → List Tuple
  | [] => [[]]
  | (table, documents) :: rest =>
    documents.flatMap fun d => (tuples rest).map ((table, d) :: ·)

theorem mem_tuples_iff : ∀ {sources : List (String × List Document)} {tuple : Tuple},
    tuple ∈ tuples sources ↔
      List.Forall₂ (fun e source => e.1 = source.1 ∧ e.2 ∈ source.2) tuple sources
  | [], tuple => by
    rw [tuples, List.mem_singleton, List.forall₂_nil_right_iff]
  | (table, documents) :: rest, tuple => by
    simp only [tuples, List.mem_flatMap, List.mem_map]
    constructor
    · rintro ⟨d, hd, tuple', ht, rfl⟩
      exact .cons ⟨rfl, hd⟩ (mem_tuples_iff.mp ht)
    · rintro (_ | ⟨⟨rfl, hd⟩, hrest⟩)
      exact ⟨_, hd, _, mem_tuples_iff.mpr hrest, rfl⟩

theorem names_of_mem_tuples {sources : List (String × List Document)} {tuple : Tuple}
    (h : tuple ∈ tuples sources) : tuple.map Prod.fst = sources.map Prod.fst := by
  have hf := mem_tuples_iff.mp h
  clear h
  induction hf with
  | nil => rfl
  | cons hd _ ih => rw [List.map_cons, List.map_cons, hd.1, ih]

theorem exists_source_of_mem {sources : List (String × List Document)} {tuple : Tuple}
    (h : tuple ∈ tuples sources) {e : String × Document} (he : e ∈ tuple) :
    ∃ source ∈ sources, e.1 = source.1 ∧ e.2 ∈ source.2 :=
  exists_of_mem_forall₂ (mem_tuples_iff.mp h).flip he

/-- Filtering the documents of every source is filtering the tuples. -/
theorem tuples_filter (f : String → Document → Bool) :
    ∀ sources : List (String × List Document),
      tuples (sources.map fun source => (source.1, source.2.filter (f source.1))) =
        (tuples sources).filter fun tuple => tuple.all fun e => f e.1 e.2
  | [] => rfl
  | (table, documents) :: sources => by
    rw [List.map_cons, tuples, tuples, List.filter_flatMap, flatMap_filter, tuples_filter f sources]
    refine congrArg (List.flatMap · documents) (funext fun d => ?_)
    rw [List.filter_map]
    cases hd : f table d with
    | false =>
      have hno : ((fun tuple : Tuple => tuple.all fun e => f e.1 e.2) ∘ ((table, d) :: ·)) =
          fun _ => false := by
        funext tuple
        simp [hd]
      simp [hno]
    | true =>
      have hon : ((fun tuple : Tuple => tuple.all fun e => f e.1 e.2) ∘ ((table, d) :: ·)) =
          fun tuple => tuple.all fun e => f e.1 e.2 := by
        funext tuple
        simp [hd]
      rw [hon]
      rfl

namespace Plan

variable (p : Plan)

/-- The tables of a query with their documents, the base table in front. -/
def sources (fetched : Fetched) (joins : List Join) : List (String × List Document) :=
  (p.scope.base, documentsOf fetched p.scope.base) ::
    joins.map fun j => (j.table, documentsOf fetched j.table)

/-- A row with the columns of the documents of joined tables. -/
def mergeOnto (row : Row) (tuple : Tuple) : Row :=
  tuple.foldl (fun row e => mergeRow e.1 (p.columnsOf e.1) row e.2.data) row

/-- The row that a tuple turns into. -/
def mergedRow : Tuple → Row
  | [] => .empty
  | e :: rest => p.mergeOnto e.2.data rest

/-- Whether a document joins a row so far. -/
def joinsDocument (row : Row) (j : Join) (d : Document) : Bool :=
  match leftCell? row (j.oriented.leftTable p.scope) (Column.bareName j.oriented.left) with
  | some value => matchesCell (Column.bareName j.oriented.right) value d
  | none => false

/-- Whether each document of the tuple joins the row made before it. -/
def joinsOnto : Row → List Join → Tuple → Bool
  | _, [], _ => true
  | _, _ :: _, [] => false
  | row, j :: joins, e :: rest =>
    p.joinsDocument row j e.2 &&
      joinsOnto (mergeRow e.1 (p.columnsOf e.1) row e.2.data) joins rest

/-- Whether the documents of a tuple join each other. -/
def combines (joins : List Join) : Tuple → Bool
  | [] => false
  | e :: rest => p.joinsOnto e.2.data joins rest

/-! ### The joined rows -/

theorem joinNext_eq (fetched : Fetched) (rows : List Row) (j : Join) :
    p.joinNext fetched rows j = rows.flatMap fun row =>
      ((documentsOf fetched j.table).filter (p.joinsDocument row j)).map fun d =>
        mergeRow j.table (p.columnsOf j.table) row d.data := by
  unfold joinNext joinRows
  refine congrArg (rows.flatMap ·) (funext fun row => ?_)
  cases hl : leftCell? row (j.oriented.leftTable p.scope) (Column.bareName j.oriented.left) with
  | none => simp [joinsDocument, hl]
  | some value =>
    have hd : p.joinsDocument row j = matchesCell (Column.bareName j.oriented.right) value := by
      funext d
      simp [joinsDocument, hl]
    rw [hd]

/-- The joins of rows are the tuples that join them, row after row. -/
theorem foldl_joinNext (fetched : Fetched) : ∀ (joins : List Join) (rows : List Row),
    joins.foldl (p.joinNext fetched) rows = rows.flatMap fun row =>
      ((tuples (joins.map fun j => (j.table, documentsOf fetched j.table))).filter
        (p.joinsOnto row joins)).map (p.mergeOnto row)
  | [], rows => by simp [tuples, joinsOnto, mergeOnto]
  | j :: joins, rows => by
    rw [List.foldl_cons, foldl_joinNext fetched joins, joinNext_eq, List.flatMap_assoc]
    refine congrArg (rows.flatMap ·) (funext fun row => ?_)
    rw [List.map_cons, tuples, List.filter_flatMap, List.map_flatMap, List.flatMap_map,
      flatMap_filter]
    refine congrArg (List.flatMap · _) (funext fun d => ?_)
    rw [List.filter_map, List.map_map]
    cases hd : p.joinsDocument row j d with
    | false =>
      have hno : p.joinsOnto row (j :: joins) ∘ ((j.table, d) :: ·) = fun _ => false := by
        funext tuple
        simp [joinsOnto, hd]
      simp [hno]
    | true =>
      have hon : p.joinsOnto row (j :: joins) ∘ ((j.table, d) :: ·) =
          p.joinsOnto (mergeRow j.table (p.columnsOf j.table) row d.data) joins := by
        funext tuple
        simp [joinsOnto, hd]
      rw [hon]
      rfl

/-- The joined rows are the merged rows of the tuples whose documents join each other. -/
theorem joinedRows_eq (fetched : Fetched) (joins : List Join) :
    p.joinedRows fetched joins =
      ((tuples (p.sources fetched joins)).filter (p.combines joins)).map p.mergedRow := by
  rw [joinedRows, foldl_joinNext, sources, tuples, List.filter_flatMap, List.map_flatMap,
    List.flatMap_map]
  refine congrArg (List.flatMap · _) (funext fun d => ?_)
  rw [List.filter_map, List.map_map]
  rfl

end Plan

/-! ### The keys of merged rows -/

theorem get?_mergeRow_of_ne {table key : String} {columns : List String} (left right : Row)
    (h : ∀ c, key ≠ Column.qualified table c) :
    (mergeRow table columns left right).get? key = left.get? key := by
  refine OrderedMap.get?_insertAll_of_notMem _ _ fun hm => ?_
  obtain ⟨e, he, hk⟩ := List.mem_map.mp hm
  obtain ⟨c, -, rfl⟩ := List.mem_map.mp he
  exact h c hk.symm

theorem get?_mergeRow_qualified (table column : String) (columns : List String)
    (left right : Row) :
    (mergeRow table columns left right).get? (Column.qualified table column) =
      if column ∈ columns then some (right.cell column)
      else left.get? (Column.qualified table column) := by
  unfold mergeRow
  split
  · rename_i hc
    refine OrderedMap.get?_insertAll_of_forall _ _ ?_ fun e he hk => ?_
    · exact List.mem_map.mpr ⟨_, List.mem_map.mpr ⟨column, hc, rfl⟩, rfl⟩
    · obtain ⟨c, -, rfl⟩ := List.mem_map.mp he
      rw [Column.qualified_column_inj hk]
  · rename_i hc
    refine OrderedMap.get?_insertAll_of_notMem _ _ fun hm => ?_
    obtain ⟨e, he, hk⟩ := List.mem_map.mp hm
    obtain ⟨c, hm, rfl⟩ := List.mem_map.mp he
    exact hc (Column.qualified_column_inj hk ▸ hm)

namespace Plan

variable (p : Plan)

theorem mergeOnto_cons (row : Row) (e : String × Document) (tuple : Tuple) :
    p.mergeOnto row (e :: tuple) =
      p.mergeOnto (mergeRow e.1 (p.columnsOf e.1) row e.2.data) tuple := rfl

theorem mergeOnto_append (row : Row) (tuple rest : Tuple) :
    p.mergeOnto row (tuple ++ rest) = p.mergeOnto (p.mergeOnto row tuple) rest :=
  List.foldl_append

/-- A name without dots stands for the cell that was there. -/
theorem get?_mergeOnto_of_isDotFree {key : String} (hk : Column.IsDotFree key) :
    ∀ (tuple : Tuple) (row : Row), (p.mergeOnto row tuple).get? key = row.get? key
  | [], _ => rfl
  | e :: tuple, row => by
    rw [mergeOnto_cons, get?_mergeOnto_of_isDotFree hk tuple]
    refine get?_mergeRow_of_ne _ _ fun c he => ?_
    exact Column.not_isDotFree_qualified e.1 c (he ▸ hk)

/-- A key of a table that the tuple does not have stands for the cell that was there. -/
theorem get?_mergeOnto_of_notMem {table : String} (ht : Column.IsDotFree table)
    (column : String) : ∀ (tuple : Tuple) (row : Row),
    (∀ e ∈ tuple, Column.IsDotFree e.1) → table ∉ tuple.map Prod.fst →
    (p.mergeOnto row tuple).get? (Column.qualified table column) =
      row.get? (Column.qualified table column)
  | [], _, _, _ => rfl
  | e :: tuple, row, hd, hn => by
    rw [List.map_cons, List.mem_cons, not_or] at hn
    rw [List.forall_mem_cons] at hd
    rw [mergeOnto_cons, get?_mergeOnto_of_notMem ht column tuple _ hd.2 hn.2]
    refine get?_mergeRow_of_ne _ _ fun c he => ?_
    exact hn.1 (Column.qualified_inj ht hd.1 he).1

/-- A key `table.column` stands for the cell of that table's document, if the schema of the table
lists the column. -/
theorem get?_mergeOnto_qualified {table : String} {d : Document} (ht : Column.IsDotFree table)
    (column : String) : ∀ (tuple : Tuple) (row : Row),
    (∀ e ∈ tuple, Column.IsDotFree e.1) → (tuple.map Prod.fst).Nodup → (table, d) ∈ tuple →
    (p.mergeOnto row tuple).get? (Column.qualified table column) =
      if column ∈ p.columnsOf table then some (d.data.cell column)
      else row.get? (Column.qualified table column)
  | [], _, _, _, hm => by cases hm
  | e :: tuple, row, hd, hn, hm => by
    rw [List.map_cons, List.nodup_cons] at hn
    rw [List.forall_mem_cons] at hd
    rw [mergeOnto_cons]
    rcases List.mem_cons.mp hm with rfl | hm
    · rw [get?_mergeOnto_of_notMem p ht column tuple _ hd.2 hn.1, get?_mergeRow_qualified]
    · have hne : table ≠ e.1 := fun he => hn.1 (he ▸ List.mem_map.mpr ⟨_, hm, rfl⟩)
      rw [get?_mergeOnto_qualified ht column tuple _ hd.2 hn.2 hm]
      split
      · rfl
      · refine get?_mergeRow_of_ne _ _ fun c he => ?_
        exact hne (Column.qualified_inj ht hd.1 he).1

end Plan

/-! ### Tuples whose keys do not meet -/

namespace Tuple

/-- The document of a table. -/
def document? (tuple : Tuple) (table : String) : Option Document := Entries.find? table tuple

/-- The tables of a tuple differ, and no dot in a name of theirs or in a key of the first document
could be taken for the one between table and column. -/
structure IsApart (base : String) (d : Document) (rest : Tuple) : Prop where
  base_dotFree : Column.IsDotFree base
  keys_dotFree : ∀ key ∈ d.data.keys, Column.IsDotFree key
  names_dotFree : ∀ e ∈ rest, Column.IsDotFree e.1
  base_notMem : base ∉ rest.map Prod.fst
  names_nodup : (rest.map Prod.fst).Nodup

namespace IsApart

variable {base : String} {d : Document} {rest : Tuple}

theorem nodup (h : IsApart base d rest) :
    ((((base, d) :: rest : Tuple)).map Prod.fst).Nodup :=
  List.nodup_cons.mpr ⟨h.base_notMem, h.names_nodup⟩

theorem document?_of_mem (h : IsApart base d rest) {table : String} {e : Document}
    (he : (table, e) ∈ (base, d) :: rest) :
    document? ((base, d) :: rest) table = some e := Entries.find?_of_mem h.nodup he

theorem document?_base (h : IsApart base d rest) :
    document? ((base, d) :: rest) base = some d := h.document?_of_mem List.mem_cons_self

theorem get?_eq_none (h : IsApart base d rest) (table column : String) :
    d.data.get? (Column.qualified table column) = none := by
  rw [OrderedMap.get?_eq_none_iff]
  exact fun hk => Column.not_isDotFree_qualified table column (h.keys_dotFree _ hk)

/-- The columns of a joined table stand under its name. -/
theorem get?_mergedRow_of_mem (h : IsApart base d rest) (p : Plan) {table : String} {e : Document}
    (he : (table, e) ∈ rest) (column : String) :
    (p.mergedRow ((base, d) :: rest)).get? (Column.qualified table column) =
      if column ∈ p.columnsOf table then some (e.data.cell column) else none := by
  rw [Plan.mergedRow, p.get?_mergeOnto_qualified (h.names_dotFree _ he) column rest _
    h.names_dotFree h.names_nodup he, h.get?_eq_none]

/-- Nothing stands under the name of a table that is not joined. -/
theorem get?_mergedRow_of_notMem (h : IsApart base d rest) (p : Plan) {table : String}
    (ht : Column.IsDotFree table) (hn : table ∉ rest.map Prod.fst) (column : String) :
    (p.mergedRow ((base, d) :: rest)).get? (Column.qualified table column) = none := by
  rw [Plan.mergedRow, p.get?_mergeOnto_of_notMem ht column rest _ h.names_dotFree hn,
    h.get?_eq_none]

/-- Under a name without dots stands the cell of the base document. -/
theorem get?_mergedRow_of_isDotFree (p : Plan) (base : String) (d : Document) (rest : Tuple)
    {key : String} (hk : Column.IsDotFree key) :
    (p.mergedRow ((base, d) :: rest)).get? key = d.data.get? key :=
  p.get?_mergeOnto_of_isDotFree hk rest _

end IsApart
end Tuple

namespace Scope

/-- The key under which a merged row has a column of a table. -/
def keyOf (s : Scope) (table column : String) : String :=
  if table = s.base then column else Column.qualified table column

end Scope

/-- A listed column of a table of the tuple is found under its key, as the cell of that table's
document. -/
theorem cell_mergedRow_keyOf {p : Plan} {d e : Document} {rest : Tuple}
    (h : Tuple.IsApart p.scope.base d rest) {table column : String}
    (he : (table, e) ∈ (p.scope.base, d) :: rest) (hc : column ∈ p.columnsOf table)
    (hd : Column.IsDotFree column) :
    (p.mergedRow ((p.scope.base, d) :: rest)).cell (p.scope.keyOf table column) =
      e.data.cell column := by
  unfold Scope.keyOf Row.cell
  rcases List.mem_cons.mp he with hb | hr
  · obtain ⟨rfl, rfl⟩ := Prod.mk.inj hb
    rw [if_pos rfl, Tuple.IsApart.get?_mergedRow_of_isDotFree p _ _ _ hd]
  · have hne : table ≠ p.scope.base := fun hb => h.base_notMem (hb ▸ List.mem_map.mpr ⟨_, hr, rfl⟩)
    rw [if_neg hne, h.get?_mergedRow_of_mem p hr, if_pos hc]
    rfl

end DocumentSql
