/-
# What an ON clause matches

The joins look for the cells of an ON clause in the row made so far and in the
next document. If every ON clause names the joined table on one side and a
table before it on the other (`Plan.NamesEarlier`), in either order, the cell
found in the row is that of the named table's document, so a tuple is joined
exactly when each ON clause finds two equal cells in the documents of the
tables it names (`Tuple.IsApart.combines_eq`).

Key definitions: `Tuple.matchesOn`, `Plan.NamesEarlier`, `Plan.OnEarlier`.
Key theorems: `Plan.oriented_eq`, `Tuple.IsApart.joinsOnto_eq`,
`Tuple.IsApart.combines_eq`.
-/
import DocumentSql.Proofs.Scalar
import DocumentSql.Proofs.Select.Lookup

namespace DocumentSql

namespace Scalar

/-- Whether two cells are there and equal. -/
def bothEqual : Option Scalar → Option Scalar → Bool
  | some a, some b => a.looselyEquals b
  | _, _ => false

theorem bothEqual_comm (a b : Option Scalar) : bothEqual a b = bothEqual b a := by
  cases a <;> cases b <;> simp only [bothEqual]
  exact looselyEquals_comm _ _

/-- A missing cell matches as little as null does. -/
theorem bothEqual_getD_null (a b : Option Scalar) :
    bothEqual (some (a.getD .null)) b = bothEqual a b := by
  cases a <;> cases b <;> rfl

end Scalar

namespace Tuple

/-- The cell that an ON column names, if the document of its table has it. -/
def operand? (tuple : Tuple) (scope : Scope) (operand : String) : Option Scalar :=
  match (Column.split operand).1 with
  | some name =>
    (tuple.document? (scope.tableOf name)).bind (·.data.get? (Column.bareName operand))
  | none => none

/-- Whether the cells that an ON clause names are there and equal. -/
def matchesOn (tuple : Tuple) (scope : Scope) (on : JoinOn) : Bool :=
  Scalar.bothEqual (tuple.operand? scope on.left) (tuple.operand? scope on.right)

end Tuple

namespace Plan

/-- An operand of ON names the joined table, and the other one an earlier table; if that is a
joined one, the column is in its schema. -/
def NamesEarlier (p : Plan) (earlier : List String) (j : Join) (own other : String) : Prop :=
  j.isNamedBy own = true ∧ ∃ name, (Column.split other).1 = some name ∧
    p.scope.tableOf name ∈ earlier ∧
    (p.scope.tableOf name ≠ p.scope.base →
      Column.bareName other ∈ p.columnsOf (p.scope.tableOf name))

/-- Every ON clause matches a column of the joined table with one of an earlier table, in either
order. -/
def OnEarlier (p : Plan) : List String → List Join → Prop
  | _, [] => True
  | earlier, j :: joins =>
    (p.NamesEarlier earlier j j.on.left j.on.right ∨
        p.NamesEarlier earlier j j.on.right j.on.left) ∧
      p.OnEarlier (earlier ++ [j.table]) joins

/-- A name of the joined table, its own or its alias, stands for it. -/
def NamesStandFor (p : Plan) (j : Join) : Prop :=
  p.scope.tableOf j.table = j.table ∧
    ∀ aliasName, j.aliasName = some aliasName → p.scope.tableOf aliasName = j.table

variable {p : Plan} {j : Join}

theorem tableOf_of_isNamedBy (hj : p.NamesStandFor j) {operand : String}
    (h : j.isNamedBy operand = true) :
    ∃ name, (Column.split operand).1 = some name ∧ p.scope.tableOf name = j.table := by
  unfold Join.isNamedBy at h
  split at h
  · rename_i name hs
    refine ⟨name, hs, ?_⟩
    rw [Bool.or_eq_true, beq_iff_eq, beq_iff_eq] at h
    rcases h with h | rfl
    · exact hj.2 name h
    · exact hj.1
  · cases h

theorem oriented_eq {earlier : List String} (hj : p.NamesStandFor j) (hnew : j.table ∉ earlier)
    (h : p.NamesEarlier earlier j j.on.left j.on.right ∨
      p.NamesEarlier earlier j j.on.right j.on.left) :
    p.NamesEarlier earlier j j.oriented.right j.oriented.left ∧
      ∀ tuple : Tuple, tuple.matchesOn p.scope j.on = tuple.matchesOn p.scope j.oriented := by
  have hother : ∀ {own other}, p.NamesEarlier earlier j own other → j.isNamedBy other = false := by
    rintro own other ⟨-, name, hs, hm, -⟩
    rw [Bool.eq_false_iff]
    intro hn
    obtain ⟨name', hs', ht⟩ := tableOf_of_isNamedBy hj hn
    rw [hs] at hs'
    obtain rfl := Option.some.inj hs'
    exact hnew (ht ▸ hm)
  rcases h with h | h
  · have ho : j.oriented = ⟨j.on.right, j.on.operator, j.on.left⟩ := by
      rw [Join.oriented, h.1, hother h]
      rfl
    rw [ho]
    exact ⟨h, fun tuple => Scalar.bothEqual_comm _ _⟩
  · have ho : j.oriented = j.on := by
      rw [Join.oriented, h.1, Bool.not_true, Bool.and_false]
      rfl
    rw [ho]
    exact ⟨h, fun _ => rfl⟩

end Plan

namespace Tuple
namespace IsApart

variable {p : Plan} {base : String} {d : Document} {rest : Tuple}

theorem of_append {before : Tuple} (h : IsApart base d (before ++ rest)) :
    IsApart base d before := by
  have hsub : (before.map Prod.fst).Sublist ((before ++ rest).map Prod.fst) :=
    (List.sublist_append_left before rest).map Prod.fst
  exact {
    base_dotFree := h.base_dotFree
    keys_dotFree := h.keys_dotFree
    names_dotFree := fun e he => h.names_dotFree e (List.mem_append_left _ he)
    base_notMem := fun hm => h.base_notMem (hsub.subset hm)
    names_nodup := h.names_nodup.sublist hsub }

theorem leftCell?_mergedRow {before : Tuple} (h : IsApart p.scope.base d before)
    {table column : String} (ht : table ∈ p.scope.base :: before.map Prod.fst)
    (hd : Column.IsDotFree column)
    (hc : table ≠ p.scope.base → column ∈ p.columnsOf table) (b : Option Scalar) :
    Scalar.bothEqual (leftCell? (p.mergedRow ((p.scope.base, d) :: before)) table column) b =
      Scalar.bothEqual ((document? ((p.scope.base, d) :: before) table).bind
        (·.data.get? column)) b := by
  unfold leftCell?
  by_cases hb : table = p.scope.base
  · rw [hb, h.get?_mergedRow_of_notMem p h.base_dotFree h.base_notMem, h.document?_base]
    simp only [get?_mergedRow_of_isDotFree p _ _ _ hd, Option.bind_some]
  · have hm := (List.mem_cons.mp ht).resolve_left hb
    obtain ⟨e, he, rfl⟩ := List.mem_map.mp hm
    rw [h.get?_mergedRow_of_mem p he, if_pos (hc hb),
      h.document?_of_mem (List.mem_cons_of_mem _ he)]
    exact Scalar.bothEqual_getD_null _ _

theorem joinsDocument_eq {before : Tuple} {tuple : Tuple} {e : Document} {j : Join}
    (h : IsApart p.scope.base d before) (hj : p.NamesStandFor j)
    (hn : p.NamesEarlier (p.scope.base :: before.map Prod.fst) j j.oriented.right j.oriented.left)
    (hbefore : ∀ table ∈ p.scope.base :: before.map Prod.fst,
      tuple.document? table = document? ((p.scope.base, d) :: before) table)
    (he : tuple.document? j.table = some e) :
    p.joinsDocument (p.mergedRow ((p.scope.base, d) :: before)) j e =
      tuple.matchesOn p.scope j.oriented := by
  obtain ⟨hown, name, hs, hm, hc⟩ := hn
  obtain ⟨own, hso, hto⟩ := Plan.tableOf_of_isNamedBy hj hown
  have hleft : j.oriented.leftTable p.scope = p.scope.tableOf name := by
    rw [JoinOn.leftTable, hs]
  have hdoc : p.joinsDocument (p.mergedRow ((p.scope.base, d) :: before)) j e =
      Scalar.bothEqual (leftCell? (p.mergedRow ((p.scope.base, d) :: before))
        (p.scope.tableOf name) (Column.bareName j.oriented.left))
        (e.data.get? (Column.bareName j.oriented.right)) := by
    rw [Plan.joinsDocument, hleft]
    cases leftCell? (p.mergedRow ((p.scope.base, d) :: before)) (p.scope.tableOf name)
        (Column.bareName j.oriented.left) with
    | none => rfl
    | some v =>
      simp only [matchesCell]
      cases e.data.get? (Column.bareName j.oriented.right) <;> rfl
  rw [hdoc, h.leftCell?_mergedRow hm (Column.isDotFree_bareName _) hc, matchesOn, operand?,
    operand?, hs, hso]
  simp only [hto, he, hbefore _ hm, Option.bind_some]

/-- Whether the rest of a tuple is joined, `before` being what is joined already. -/
theorem joinsOnto_eq : ∀ (joins : List Join) (before rest : Tuple),
    IsApart p.scope.base d (before ++ rest) → rest.map Prod.fst = joins.map (·.table) →
    (∀ j ∈ joins, p.NamesStandFor j) →
    p.OnEarlier (p.scope.base :: before.map Prod.fst) joins →
    p.joinsOnto (p.mergedRow ((p.scope.base, d) :: before)) joins rest =
      joins.all fun j =>
        matchesOn ((p.scope.base, d) :: (before ++ rest)) p.scope j.on
  | [], _, _, _, _, _, _ => by simp [Plan.joinsOnto]
  | j :: joins, before, [], _, hnames, _, _ => by cases hnames
  | j :: joins, before, (table, e) :: rest, h, hnames, hstand, hon => by
    obtain ⟨rfl, hrest⟩ := List.cons.inj hnames
    rw [List.forall_mem_cons] at hstand
    have hsub : ∀ x ∈ (p.scope.base, d) :: before,
        x ∈ (p.scope.base, d) :: (before ++ (j.table, e) :: rest) := fun x hx =>
      (List.mem_cons.mp hx).elim (· ▸ List.mem_cons_self)
        fun hx => List.mem_cons_of_mem _ (List.mem_append_left _ hx)
    have hnew : j.table ∉ p.scope.base :: before.map Prod.fst := by
      have hnodup := h.nodup
      rw [List.map_cons, List.map_append, List.map_cons, ← List.cons_append,
        List.nodup_append] at hnodup
      exact fun hm => hnodup.2.2 _ hm _ List.mem_cons_self rfl
    obtain ⟨horiented, hmatch⟩ := Plan.oriented_eq hstand.1 hnew hon.1
    have hbefore : ∀ table ∈ p.scope.base :: before.map Prod.fst,
        document? ((p.scope.base, d) :: (before ++ (j.table, e) :: rest)) table =
          document? ((p.scope.base, d) :: before) table := by
      intro table hm
      have hmap : table ∈ List.map Prod.fst ((p.scope.base, d) :: before) := hm
      obtain ⟨x, hx, rfl⟩ := List.mem_map.mp hmap
      rw [h.document?_of_mem (hsub x hx), h.of_append.document?_of_mem hx]
    have he : document? ((p.scope.base, d) :: (before ++ (j.table, e) :: rest)) j.table = some e :=
      h.document?_of_mem (List.mem_cons_of_mem _ (List.mem_append_right _ List.mem_cons_self))
    have hstep : p.mergedRow ((p.scope.base, d) :: (before ++ [(j.table, e)])) =
        mergeRow j.table (p.columnsOf j.table) (p.mergedRow ((p.scope.base, d) :: before))
          e.data := p.mergeOnto_append _ _ _
    rw [Plan.joinsOnto, h.of_append.joinsDocument_eq hstand.1 horiented hbefore he, ← hstep,
      List.all_cons, hmatch]
    have ih := joinsOnto_eq joins (before ++ [(j.table, e)]) rest
    simp only [List.append_assoc, List.singleton_append, List.map_append, List.map_cons,
      List.map_nil] at ih
    rw [ih h hrest hstand.2 hon.2]

/-- A tuple is joined exactly when every ON clause finds equal cells. -/
theorem combines_eq {joins : List Join} (h : IsApart p.scope.base d rest)
    (hnames : rest.map Prod.fst = joins.map (·.table)) (hstand : ∀ j ∈ joins, p.NamesStandFor j)
    (hon : p.OnEarlier [p.scope.base] joins) :
    p.combines joins ((p.scope.base, d) :: rest) =
      joins.all fun j => matchesOn ((p.scope.base, d) :: rest) p.scope j.on :=
  joinsOnto_eq joins [] rest h hnames hstand hon

end IsApart
end Tuple
end DocumentSql
