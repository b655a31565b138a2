/-
# Conditions on integers in memory

Every comparison but LIKE and IN stands for a relation between integers
(`Comparison.Relates`). In memory two integers are compared as the doubles
nearest to them, so a condition with the value `n` takes an integer with the
same double for `n` itself and every other one for what it is
(`Scalar.comparedAs`). A fetch therefore gives exactly the documents whose
integers stand in the relation to `n`, if none of them is taken for `n` that is
another one, which is so whenever `n` is below `2^53` in size
(`MemoryStore.Reachable.fetch_int`). The integers `2^53` and `2^53 + 1` are taken
for each other (`MemoryStore.fetch_int_neighbours`).

Key definition: `Comparison.Relates`.
Key theorems: `Comparison.accepts_compare`, `MemoryStore.Reachable.fetch_int`.
-/
import DocumentSql.Proofs.Predicate
import DocumentSql.Proofs.Store.Steps

namespace DocumentSql

namespace Comparison

/-- The relation between integers that a comparison stands for; LIKE and IN stand for none. -/
def Relates (comparison : Comparison) (a b : Int) : Prop :=
  match comparison with
  | .eq => a = b
  | .notEq => a ≠ b
  | .greater => b < a
  | .less => a < b
  | .greaterEq => b ≤ a
  | .lessEq => a ≤ b
  | .like | .inList => False

instance : ∀ (comparison : Comparison) (a b : Int), Decidable (comparison.Relates a b)
  | .eq, a, b => inferInstanceAs (Decidable (a = b))
  | .notEq, a, b => inferInstanceAs (Decidable (a ≠ b))
  | .greater, a, b => inferInstanceAs (Decidable (b < a))
  | .less, a, b => inferInstanceAs (Decidable (a < b))
  | .greaterEq, a, b => inferInstanceAs (Decidable (b ≤ a))
  | .lessEq, a, b => inferInstanceAs (Decidable (a ≤ b))
  | .like, _, _ | .inList, _, _ => inferInstanceAs (Decidable False)

/-- A comparison accepts the order of two integers that stand in its relation. -/
theorem accepts_compare (comparison : Comparison) (a b : Int) :
    comparison.accepts (some (compare a b)) = decide (comparison.Relates a b) := by
  rw [Bool.eq_iff_iff, decide_eq_true_iff]
  rcases lt_trichotomy a b with h | rfl | h
  · rw [compare_lt_iff_lt.mpr h]
    cases comparison <;> simp [accepts, Relates] <;> omega
  · rw [compare_eq_iff_eq.mpr rfl]
    cases comparison <;> simp [accepts, Relates]
  · rw [compare_gt_iff_gt.mpr h]
    cases comparison <;> simp [accepts, Relates] <;> omega

end Comparison

/-- A row whose cell is an integer satisfies a comparison with `n` if the integer, taken for `n` if
it has the same double, stands in the relation to `n`. -/
theorem Predicate.holds_int {row : Row} {column : String} {i : Int64}
    (hcell : row.get? column = some (.int i)) {comparison : Comparison}
    (hlike : comparison ≠ .like) (n : Int64) :
    holds ⟨column, comparison, .int n⟩ row =
      decide (comparison.Relates (Scalar.comparedAs i n) n.toInt) := by
  have hrow : row.cell column = .int i := by rw [Row.cell, hcell, Option.getD_some]
  rw [holds_of_ne_like hlike, hrow, Scalar.compare?_int_eq, Comparison.accepts_compare]

namespace MemoryStore

/-- A condition on a column of integers gives the first documents whose integers stand in the
relation to `n`. Those with the double of `n` are taken for `n`; if there are no others than `n`
with it, as for every `n` below `2^53` in size, the integers count as they are. -/
theorem Reachable.fetch_int {s : MemoryStore} (h : s.Reachable) (hids : s.HasColonFreeIds)
    {project : String} {schema : ProjectSchema} (hschema : s.schema project = .ok schema)
    {t : TableSchema} (ht : t ∈ schema.tables) {column : String} {value : Document → Int64}
    (hcells : ∀ d ∈ s.documentsOf project t.name, d.data.get? column = some (.int (value d)))
    {comparison : Comparison} (hlike : comparison ≠ .like) (n : Int64) (limit : Nat) :
    s.fetch t [⟨column, comparison, .int n⟩] limit =
        .ok (((s.documentsOf project t.name).filter fun d =>
          comparison.Relates (Scalar.comparedAs (value d) n) n.toInt).take limit) ∧
      (n.toInt.natAbs < 2 ^ 53 ∨
          (∀ d ∈ s.documentsOf project t.name, Scalar.IsToldFrom (value d) n) →
        s.fetch t [⟨column, comparison, .int n⟩] limit =
          .ok (((s.documentsOf project t.name).filter fun d =>
            comparison.Relates (value d).toInt n.toInt).take limit)) := by
  have hfetch : s.fetch t [⟨column, comparison, .int n⟩] limit =
      .ok (((s.documentsOf project t.name).filter fun d =>
        comparison.Relates (Scalar.comparedAs (value d) n) n.toInt).take limit) := by
    rw [h.fetch_eq hids hschema ht]
    congr 2
    refine List.filter_congr fun d hd => ?_
    rw [holdsAll, List.all_cons, List.all_nil, Bool.and_true,
      Predicate.holds_int (hcells d hd) hlike]
  refine ⟨hfetch, fun htold => ?_⟩
  have htold : ∀ d ∈ s.documentsOf project t.name, Scalar.IsToldFrom (value d) n :=
    htold.elim (fun hn d _ => Scalar.isToldFrom_of_lt hn (value d)) id
  rw [hfetch]
  congr 2
  refine List.filter_congr fun d hd => ?_
  rw [(htold d hd).comparedAs_eq]

/-- Tickets with numbers, two of which have the same double. -/
def tickets : MemoryStore :=
  run [.create "p" "tickets" ["number"],
    .insert "p" "tickets" (.ofList [("number", .int 9007199254740993)]),
    .insert "p" "tickets" (.ofList [("number", .int (-3))]),
    .insert "p" "tickets" (.ofList [("number", .int 9007199254740992)])]

def ticketTable : TableSchema := ⟨"p:tickets", "tickets", ["number"]⟩

def ticketNumber (d : Document) : Int64 :=
  match d.data.get? "number" with
  | some (.int i) => i
  | _ => 0

theorem fetch_int_tickets :
    tickets.fetch ticketTable [⟨"number", .greater, .int 9007199254740991⟩] 9 =
      .ok [⟨"tickets-1", .ofList [("number", .int 9007199254740993)]⟩,
        ⟨"tickets-3", .ofList [("number", .int 9007199254740992)]⟩] := by
  have hids : tickets.HasColonFreeIds := by
    unfold HasColonFreeIds
    decide +kernel
  have hschema : tickets.schema "p" = .ok ⟨"p", [ticketTable]⟩ := by decide +kernel
  have hcells : ∀ d ∈ tickets.documentsOf "p" "tickets",
      d.data.get? "number" = some (.int (ticketNumber d)) := by decide +kernel
  have hbelow : (9007199254740991 : Int64).toInt.natAbs < 2 ^ 53 := by decide
  have hfetch := ((reachable_run _).fetch_int hids hschema List.mem_cons_self hcells
    (show Comparison.greater ≠ .like by decide) 9007199254740991 9).2 (.inl hbelow)
  exact hfetch.trans (by decide +kernel)

/-- A number that is no double is found by the number in front of it. -/
theorem fetch_int_neighbours :
    tickets.fetch ticketTable [⟨"number", .eq, .int 9007199254740992⟩] 9 =
        .ok [⟨"tickets-1", .ofList [("number", .int 9007199254740993)]⟩,
          ⟨"tickets-3", .ofList [("number", .int 9007199254740992)]⟩] ∧
      ((tickets.documentsOf "p" "tickets").filter fun d =>
          Comparison.eq.Relates (ticketNumber d).toInt (9007199254740992 : Int64).toInt).take 9 =
        [⟨"tickets-3", .ofList [("number", .int 9007199254740992)]⟩] := by
  decide +kernel

end MemoryStore
end DocumentSql
