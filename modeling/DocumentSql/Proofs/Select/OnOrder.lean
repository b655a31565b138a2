/-
# The order of the columns of ON

`ON u.id = o.user_id` and `ON o.user_id = u.id` join the same rows: before a
join is run its columns are put in order, that of the joined table on the right
(`Join.oriented`). Exchanging them leaves that order as it was if exactly one of
them names the joined table (`Join.oriented_exchanged`).

Nothing else of a query looks at the columns as written. The checks read the
table, the kind and the operator of a join, the run its table and its ordered
columns, so joins that agree in these (`Join.IsAlike`) can stand for each other
in every place (`execute_eq_of_isAlike`), where a query fails as well as where
it is answered.

Key definitions: `Join.NamesItselfOnce`, `Join.IsAlike`, `Query.exchangedAt`.
Key theorems: `Join.oriented_exchanged`, `Plan.joinedRows_eq_of_isAlike`,
`execute_eq_of_isAlike`, `execute_exchangedAt`.
-/
import DocumentSql.Proofs.Select.Supported

namespace DocumentSql

/-- The clause with its columns exchanged. -/
def JoinOn.exchanged (on : JoinOn) : JoinOn := ⟨on.right, on.operator, on.left⟩

namespace Join

variable {j : Join}

/-- The join with the columns of its ON clause exchanged. -/
def exchanged (j : Join) : Join := { j with on := j.on.exchanged }

/-- The table part of a reference is the alias or the name of the joined table. -/
def Prefixes (j : Join) (operand : String) : Prop :=
  ∃ name column, Column.HasParts operand name column ∧ (j.aliasName = some name ∨ name = j.table)

theorem isNamedBy_iff {operand : String} : j.isNamedBy operand = true ↔ j.Prefixes operand := by
  unfold isNamedBy Prefixes
  simp only [Column.hasParts_iff]
  rcases hs : Column.split operand with ⟨name | name, column⟩
  · simp
  · constructor
    · intro h
      rw [Bool.or_eq_true, beq_iff_eq, beq_iff_eq] at h
      exact ⟨name, column, rfl, h⟩
    · rintro ⟨name', column', he, h⟩
      obtain ⟨hname, -⟩ := Prod.mk.inj he
      obtain rfl := Option.some.inj hname
      rwa [Bool.or_eq_true, beq_iff_eq, beq_iff_eq]

/-- Exactly one of the columns of ON has the joined table as prefix. -/
def NamesItselfOnce (j : Join) : Prop :=
  (j.Prefixes j.on.left ∧ ¬ j.Prefixes j.on.right) ∨
    (¬ j.Prefixes j.on.left ∧ j.Prefixes j.on.right)

theorem namesItselfOnce_iff :
    j.NamesItselfOnce ↔ j.isNamedBy j.on.left ≠ j.isNamedBy j.on.right := by
  unfold NamesItselfOnce
  rw [← isNamedBy_iff, ← isNamedBy_iff]
  cases j.isNamedBy j.on.left <;> cases j.isNamedBy j.on.right <;> simp

instance (j : Join) : Decidable j.NamesItselfOnce := decidable_of_iff _ namesItselfOnce_iff.symm

/-- Exchanged columns are put in the same order. -/
theorem oriented_exchanged (h : j.NamesItselfOnce) : j.exchanged.oriented = j.oriented := by
  have hne := namesItselfOnce_iff.mp h
  have hnamed : ∀ operand, j.exchanged.isNamedBy operand = j.isNamedBy operand := fun _ => rfl
  unfold oriented
  rw [hnamed, hnamed]
  show (if j.isNamedBy j.on.right && !j.isNamedBy j.on.left then j.on else j.on.exchanged) =
    if j.isNamedBy j.on.left && !j.isNamedBy j.on.right then j.on.exchanged else j.on
  cases hl : j.isNamedBy j.on.left with
  | true =>
    have hr : j.isNamedBy j.on.right = false := by
      rw [hl] at hne
      exact Bool.eq_false_iff.mpr hne.symm
    rw [hr]
    rfl
  | false =>
    have hr : j.isNamedBy j.on.right = true := by
      rw [hl] at hne
      exact Bool.eq_true_of_not_eq_false hne.symm
    rw [hr]
    rfl

/-- Two joins differ in nothing that a query looks at. -/
structure IsAlike (j j' : Join) : Prop where
  table : j.table = j'.table
  kind : j.kind = j'.kind
  operator : j.on.operator = j'.on.operator
  oriented : j.oriented = j'.oriented

theorem isAlike_refl (j : Join) : IsAlike j j := ⟨rfl, rfl, rfl, rfl⟩

theorem isAlike_exchanged (h : j.NamesItselfOnce) : IsAlike j.exchanged j :=
  ⟨rfl, rfl, rfl, oriented_exchanged h⟩

end Join

section Alike

variable {joins joins' : List Join}

/-! ### The checks -/

theorem tables_eq_of_isAlike (h : List.Forall₂ Join.IsAlike joins joins') :
    joins.map (·.table) = joins'.map (·.table) := by
  induction h with
  | nil => rfl
  | cons hj _ ih => rw [List.map_cons, List.map_cons, hj.table, ih]

theorem any_table_eq_of_isAlike (h : List.Forall₂ Join.IsAlike joins joins') (t : String) :
    joins.any (·.table == t) = joins'.any (·.table == t) := by
  have hmap : ∀ js : List Join, js.any (·.table == t) = (js.map (·.table)).any (· == t) := by
    intro js
    rw [List.any_map]
    rfl
  rw [hmap, hmap, tables_eq_of_isAlike h]

theorem checkJoins_eq_of_isAlike (h : List.Forall₂ Join.IsAlike joins joins') :
    ∀ earlier, checkJoins earlier joins = checkJoins earlier joins' := by
  induction h with
  | nil => exact fun _ => rfl
  | cons hj _ ih =>
    intro earlier
    rw [checkJoins, checkJoins, hj.table, hj.kind, hj.operator, ih]

theorem crossJoined?_eq_of_isAlike (h : List.Forall₂ Join.IsAlike joins joins')
    (tables : List String) : crossJoined? tables joins = crossJoined? tables joins' := by
  unfold crossJoined?
  simp only [any_table_eq_of_isAlike h]

namespace Plan

/-- The checks come to the same end. -/
theorem ofQuery_eq_of_isAlike {q : Query} (h : List.Forall₂ Join.IsAlike joins q.joins)
    (schema : ProjectSchema) : ofQuery { q with joins } schema = ofQuery q schema := by
  unfold ofQuery
  simp only [checkJoins_eq_of_isAlike h, crossJoined?_eq_of_isAlike h]

/-! ### The run -/

variable {p : Plan}

theorem joinNext_eq_of_isAlike {j j' : Join} (h : Join.IsAlike j j') (fetched : Fetched)
    (rows : List Row) : p.joinNext fetched rows j = p.joinNext fetched rows j' := by
  unfold joinNext
  rw [h.oriented, h.table]

theorem joinedRows_eq_of_isAlike (h : List.Forall₂ Join.IsAlike joins joins')
    (fetched : Fetched) : p.joinedRows fetched joins = p.joinedRows fetched joins' := by
  have hfold : ∀ rows, joins.foldl (p.joinNext fetched) rows =
      joins'.foldl (p.joinNext fetched) rows := by
    induction h with
    | nil => exact fun _ => rfl
    | cons hj _ ih =>
      intro rows
      rw [List.foldl_cons, List.foldl_cons, joinNext_eq_of_isAlike hj, ih]
  exact hfold _

theorem resultRows_eq_of_isAlike {q : Query} (h : List.Forall₂ Join.IsAlike joins q.joins)
    (rows : List Row) : p.resultRows { q with joins } rows = p.resultRows q rows := by
  have hstar : p.starKeys joins = p.starKeys q.joins := by
    unfold starKeys starTables
    simp only [any_table_eq_of_isAlike h]
  have hproject : p.projectRow { q with joins } = p.projectRow q := by
    funext row
    unfold projectRow selectCells
    rw [hstar]
  unfold resultRows
  rw [hproject]
  rfl

end Plan

/-- Joins that are alike give the same rows, or the same error. -/
theorem execute_eq_of_isAlike {q : Query} (h : List.Forall₂ Join.IsAlike joins q.joins)
    (schema : ProjectSchema) (fetch : Fetch) (rowCap : Nat) :
    execute { q with joins } schema fetch rowCap = execute q schema fetch rowCap := by
  unfold execute
  simp only [Plan.ofQuery_eq_of_isAlike h, Plan.joinedRows_eq_of_isAlike h,
    Plan.resultRows_eq_of_isAlike h]

end Alike

namespace Query

/-- The query with the ON columns of the chosen joins exchanged. -/
def exchangedAt (q : Query) (chosen : Nat → Bool) : Query :=
  { q with joins := q.joins.mapIdx fun i j => if chosen i then j.exchanged else j }

theorem isAlike_exchangedAt {q : Query} {chosen : Nat → Bool}
    (h : ∀ i (hi : i < q.joins.length), chosen i = true → q.joins[i].NamesItselfOnce) :
    List.Forall₂ Join.IsAlike (q.exchangedAt chosen).joins q.joins := by
  refine List.forall₂_iff_get.mpr ⟨List.length_mapIdx, fun i _ hi => ?_⟩
  simp only [exchangedAt, List.get_eq_getElem, List.getElem_mapIdx]
  split
  · rename_i hc
    exact Join.isAlike_exchanged (h i hi hc)
  · exact Join.isAlike_refl _

end Query

/-- **The order of the columns of ON does not matter.** Exchanging them in any joins, each of which
has its table as prefix of exactly one of them, changes neither the rows of a query, nor their
order, nor the error of a query that is not answered. -/
theorem execute_exchangedAt (q : Query) (schema : ProjectSchema) (fetch : Fetch) (rowCap : Nat)
    {chosen : Nat → Bool}
    (h : ∀ i (hi : i < q.joins.length), chosen i = true → q.joins[i].NamesItselfOnce) :
    execute (q.exchangedAt chosen) schema fetch rowCap = execute q schema fetch rowCap :=
  execute_eq_of_isAlike (Query.isAlike_exchangedAt h) schema fetch rowCap

namespace Sample

/-- Users with their orders. -/
def userOrders : Query :=
  .ofText "SELECT u.name, o.name FROM users u JOIN orders o ON o.user_id = u.id"

theorem execute_exchangedAt_userOrders :
    (userOrders.exchangedAt fun i => i == 0).joins =
        [⟨.inner, "orders", some "o", ⟨"u.id", "=", "o.user_id"⟩⟩] ∧
      execute (userOrders.exchangedAt fun i => i == 0) schema shop.fetch 2 =
        execute userOrders schema shop.fetch 2 ∧
      execute userOrders schema shop.fetch 2 = .ok
        [.ofList [("u.name", .text "Ann"), ("o.name", .text "pen")],
          .ofList [("u.name", .null), ("o.name", .text "ink")]] := by
  have honce : ∀ i (hi : i < userOrders.joins.length), (i == 0) = true →
      userOrders.joins[i].NamesItselfOnce := by decide +kernel
  have hjoins : (userOrders.exchangedAt fun i => i == 0).joins =
      [⟨.inner, "orders", some "o", ⟨"u.id", "=", "o.user_id"⟩⟩] := by decide +kernel
  have hrows : execute userOrders schema shop.fetch 2 = .ok
      [.ofList [("u.name", .text "Ann"), ("o.name", .text "pen")],
        .ofList [("u.name", .null), ("o.name", .text "ink")]] := by decide +kernel
  exact ⟨hjoins, execute_exchangedAt userOrders schema shop.fetch 2 honce, hrows⟩

end Sample
end DocumentSql
