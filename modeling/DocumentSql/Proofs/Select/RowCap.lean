/-
# A higher row cap only adds rows

The cap is applied to each table of a query, behind the predicates and before
the joins. With a higher cap every table gives the same documents first and
perhaps more behind them, so there are more tuples of documents, and among them
the old ones in their old order (`tuples_sublist`). Without aggregates and
groups a row of the result comes from one tuple, hence the rows with the lower
cap are a sublist of those with the higher one (`execute_sublist_of_le`). They
need not be its first rows, unless nothing is joined: a document that the cap
leaves out may join an early row.

Key definition: `MemoryStore.uncapped`.
Key theorems: `tuples_sublist`, `length_tuples_le`, `execute_sublist_of_le`.
-/
import DocumentSql.Proofs.Select.Fetched
import DocumentSql.Proofs.Select.Sources
import Mathlib.Algebra.Group.Nat.Defs
import Mathlib.Data.List.Flatten

namespace DocumentSql

/-! ### Tuples of more documents -/

/-- Sources with fewer documents have fewer tuples, in the same order. -/
theorem tuples_sublist {sources sources' : List (String × List Document)}
    (h : List.Forall₂ (fun few many => few.1 = many.1 ∧ few.2.Sublist many.2) sources sources') :
    (tuples sources).Sublist (tuples sources') := by
  induction h with
  | nil => exact List.Sublist.refl _
  | @cons few many sources sources' hhead _ ih =>
    obtain ⟨table, documents⟩ := few
    obtain ⟨table', documents'⟩ := many
    obtain ⟨rfl, hdocuments⟩ := hhead
    have hrest : (documents.flatMap fun d => (tuples sources).map ((table, d) :: ·)).Sublist
        (documents.flatMap fun d => (tuples sources').map ((table, d) :: ·)) :=
      List.Sublist.flatMap_right documents fun d _ => ih.map _
    exact hrest.trans (hdocuments.flatMap _)

theorem length_tuples_le {k : Nat} : ∀ {sources : List (String × List Document)},
    (∀ source ∈ sources, source.2.length ≤ k) → (tuples sources).length ≤ k ^ sources.length
  | [], _ => Nat.le_refl 1
  | (table, documents) :: sources, h => by
    obtain ⟨hdocuments, hrest⟩ := List.forall_mem_cons.mp h
    have hlength : (tuples ((table, documents) :: sources)).length =
        documents.length * (tuples sources).length := by
      simp [tuples, List.length_flatMap]
    calc (tuples ((table, documents) :: sources)).length
        = documents.length * (tuples sources).length := hlength
      _ ≤ k * k ^ sources.length := Nat.mul_le_mul hdocuments (length_tuples_le hrest)
      _ = k ^ (sources.length + 1) := by rw [Nat.pow_succ, Nat.mul_comm]

namespace Plan

variable {p : Plan}

theorem sources_forall₂ {fetched fetched' : Fetched}
    (h : ∀ table, (documentsOf fetched table).Sublist (documentsOf fetched' table))
    (joins : List Join) :
    List.Forall₂ (fun few many => few.1 = many.1 ∧ few.2.Sublist many.2)
      (p.sources fetched joins) (p.sources fetched' joins) := by
  refine .cons ⟨rfl, h _⟩ ?_
  rw [List.forall₂_map_left_iff, List.forall₂_map_right_iff, List.forall₂_same]
  exact fun j _ => ⟨rfl, h j.table⟩

/-- Fewer documents give fewer joined rows, in the same order. -/
theorem joinedRows_sublist {fetched fetched' : Fetched}
    (h : ∀ table, (documentsOf fetched table).Sublist (documentsOf fetched' table))
    (joins : List Join) : (p.joinedRows fetched joins).Sublist (p.joinedRows fetched' joins) := by
  rw [joinedRows_eq, joinedRows_eq]
  exact ((tuples_sublist (sources_forall₂ h joins)).filter _).map _

/-- There is at most one joined row for each choice of a document of every table. -/
theorem length_joinedRows_le {fetched : Fetched} {k : Nat}
    (h : ∀ table, (documentsOf fetched table).length ≤ k) (joins : List Join) :
    (p.joinedRows fetched joins).length ≤ k ^ (joins.length + 1) := by
  have hsources : ∀ source ∈ p.sources fetched joins, source.2.length ≤ k := by
    refine List.forall_mem_cons.mpr ⟨h _, fun source hs => ?_⟩
    obtain ⟨j, -, rfl⟩ := List.mem_map.mp hs
    exact h j.table
  have hlength : (p.sources fetched joins).length = joins.length + 1 := by
    rw [sources, List.length_cons, List.length_map]
  calc (p.joinedRows fetched joins).length
      ≤ (tuples (p.sources fetched joins)).length := by
        rw [joinedRows_eq, List.length_map]
        exact List.length_filter_le _ _
    _ ≤ k ^ (joins.length + 1) := hlength ▸ length_tuples_le hsources

end Plan

/-! ### What is fetched with a cap -/

namespace MemoryStore

variable {s : MemoryStore} {project : String} {schema : ProjectSchema}

/-- All documents that satisfy the predicates of a plan, for a table of the plan: those of the first
table in the store that has its identifier. -/
def uncapped (s : MemoryStore) (p : Plan) (table : String) : List Document :=
  match (p.table? table).bind fun t => s.tableWithId? t.id with
  | some t => t.documents.filter (holdsAll (p.predicatesFor table))
  | none => []

/-- A table of a project can be fetched from. -/
theorem exists_tableWithId? (hschema : s.schema project = .ok schema) {t : TableSchema}
    (ht : t ∈ schema.tables) : ∃ table, s.tableWithId? t.id = some table := by
  rw [tables_of_schema hschema] at ht
  obtain ⟨own, hown, rfl⟩ := List.mem_map.mp ht
  refine Option.isSome_iff_exists.mp (List.find?_isSome.mpr ⟨own, ?_, beq_self_eq_true _⟩)
  exact mem_tables_iff.mpr ⟨project, hown⟩

end MemoryStore

namespace Plan.Accepts

variable {s : MemoryStore} {project : String} {schema : ProjectSchema} {q : Query} {p : Plan}

/-- A cap cuts off what a table has behind its first documents. -/
theorem fetchTables_eq_take (h : Accepts q schema p) (hschema : s.schema project = .ok schema)
    (rowCap : Nat) : p.fetchTables s.fetch rowCap p.tables =
      .ok (withDocuments q.tables fun table => (s.uncapped p table).take rowCap) := by
  rw [← h.names_tables]
  refine fetchTables_of_forall fun t ht => ?_
  obtain ⟨table, htable⟩ := MemoryStore.exists_tableWithId? hschema (h.mem_schema ht)
  simp only [MemoryStore.fetch, MemoryStore.uncapped, h.plan_table? ht, htable, Option.bind_some]

theorem execute_eq_take (h : Accepts q schema p) (hschema : s.schema project = .ok schema)
    (rowCap : Nat) : execute q schema s.fetch rowCap =
      .ok (p.resultRows q (p.joinedRows
        (withDocuments q.tables fun table => (s.uncapped p table).take rowCap) q.joins)) :=
  execute_eq_ok_iff.mpr
    ⟨p, _, ofQuery_eq_ok_iff.mpr h, h.fetchTables_eq_take hschema rowCap, rfl⟩

end Plan.Accepts

theorem Plan.documentsOf_take_sublist (tables : List String) (documents : String → List Document)
    {k m : Nat} (h : k ≤ m) (table : String) :
    (documentsOf (withDocuments tables fun t => (documents t).take k) table).Sublist
      (documentsOf (withDocuments tables fun t => (documents t).take m) table) := by
  rw [documentsOf_withDocuments, documentsOf_withDocuments]
  split
  · exact (List.take_prefix_take_left h).sublist
  · exact List.Sublist.refl _

theorem Plan.length_documentsOf_take (tables : List String) (documents : String → List Document)
    (k : Nat) (table : String) :
    (documentsOf (withDocuments tables fun t => (documents t).take k) table).length ≤ k := by
  rw [documentsOf_withDocuments]
  split
  · exact List.length_take_le _ _
  · exact Nat.zero_le k

/-! ### The rows of a query -/

theorem Plan.resultRows_of_plain {p : Plan} {q : Query} (haggregates : q.aggregates = [])
    (hgroupBy : q.groupBy = []) (rows : List Row) :
    p.resultRows q rows = rows.map (p.projectRow q) := by
  rw [resultRows, if_neg]
  simp [Query.isAggregate, haggregates, hgroupBy]

/-- **A higher cap only adds rows.** The rows of an accepted query without aggregates and groups are
a sublist of those with a higher cap, at most one for each choice of as many documents as tables;
without joins they are the first ones. -/
theorem execute_sublist_of_le {s : MemoryStore} {project : String} {schema : ProjectSchema}
    (hschema : s.schema project = .ok schema) {q : Query} {p : Plan}
    (hp : Plan.ofQuery q schema = .ok p) (haggregates : q.aggregates = [])
    (hgroupBy : q.groupBy = []) {k m : Nat} (hkm : k ≤ m) :
    ∃ rows rows', execute q schema s.fetch k = .ok rows ∧ execute q schema s.fetch m = .ok rows' ∧
      rows.Sublist rows' ∧ rows.length ≤ k ^ (q.joins.length + 1) ∧
        (q.joins = [] → rows = rows'.take k) := by
  have h : Plan.Accepts q schema p := Plan.ofQuery_eq_ok_iff.mp hp
  refine ⟨_, _, h.execute_eq_take hschema k, h.execute_eq_take hschema m, ?_, ?_, ?_⟩
  · simp only [Plan.resultRows_of_plain haggregates hgroupBy]
    exact (Plan.joinedRows_sublist (Plan.documentsOf_take_sublist _ _ hkm) _).map _
  · rw [Plan.resultRows_of_plain haggregates hgroupBy, List.length_map]
    exact Plan.length_joinedRows_le (Plan.length_documentsOf_take _ _ k) _
  · intro hjoins
    simp only [Plan.resultRows_of_plain haggregates hgroupBy, hjoins, Plan.joinedRows,
      List.foldl_nil, Plan.documentsOf_withDocuments, if_pos h.base_mem, ← List.map_take,
      List.take_take, Nat.min_eq_left hkm]

namespace Sample

/-- Three guests, one of whom has left, and three rooms; the room for the first guest comes last. -/
def inn : MemoryStore :=
  (Fixture.load [⟨"inn", [
    ⟨"guests", ["name", "floor", "gone"], [
      .ofList [("name", .text "Cy"), ("floor", .int 2), ("gone", .bool true)],
      .ofList [("name", .text "Ann"), ("floor", .int 1), ("gone", .bool false)],
      .ofList [("name", .text "Bo"), ("floor", .int 2), ("gone", .bool false)]]⟩,
    ⟨"rooms", ["number", "floor"], [
      .ofList [("number", .int 21), ("floor", .int 2)],
      .ofList [("number", .int 31), ("floor", .int 3)],
      .ofList [("number", .int 11), ("floor", .int 1)]]⟩]⟩]).toOption.getD .empty

def innSchema : ProjectSchema :=
  ⟨"inn", [⟨"inn:guests", "guests", ["name", "floor", "gone"]⟩,
    ⟨"inn:rooms", "rooms", ["number", "floor"]⟩]⟩

/-- The rooms for the guests who have not left. -/
def guestRooms : String :=
  "SELECT name, number FROM guests g JOIN rooms r ON g.floor = r.floor WHERE gone = false"

/-- Two documents of each table leave out the first of the joined rows. -/
theorem execute_sublist_of_le_guestRooms :
    ∃ rows rows', execute (.ofText guestRooms) innSchema inn.fetch 2 = .ok rows ∧
      execute (.ofText guestRooms) innSchema inn.fetch 3 = .ok rows' ∧
      rows = [.ofList [("name", .text "Bo"), ("number", .int 21)]] ∧
      rows' = [.ofList [("name", .text "Ann"), ("number", .int 11)],
        .ofList [("name", .text "Bo"), ("number", .int 21)]] ∧
      rows.Sublist rows' ∧ rows.length ≤ 2 ^ 2 := by
  have hfew : execute (.ofText guestRooms) innSchema inn.fetch 2 =
      .ok [.ofList [("name", .text "Bo"), ("number", .int 21)]] := by decide +kernel
  have hmany : execute (.ofText guestRooms) innSchema inn.fetch 3 =
      .ok [.ofList [("name", .text "Ann"), ("number", .int 11)],
        .ofList [("name", .text "Bo"), ("number", .int 21)]] := by decide +kernel
  obtain ⟨p, -, hp, -, -⟩ := execute_eq_ok_iff.mp hfew
  have hschema : inn.schema "inn" = .ok innSchema := rfl
  have hjoins : (Query.ofText guestRooms).joins.length = 1 := by decide +kernel
  obtain ⟨rows, rows', h, h', hsublist, hlength, -⟩ := execute_sublist_of_le (k := 2) (m := 3)
    hschema hp (by decide +kernel) (by decide +kernel) (by decide)
  rw [hjoins] at hlength
  exact ⟨rows, rows', h, h', Except.ok.inj (h.symm.trans hfew), Except.ok.inj (h'.symm.trans hmany),
    hsublist, hlength⟩

end Sample
end DocumentSql
