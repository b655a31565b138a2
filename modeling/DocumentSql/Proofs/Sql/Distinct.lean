/-
# Texts without repetitions

`Sql.distinct` keeps of each text in a list the first occurrence: all texts of
the list are kept (`mem_distinct`), none twice (`nodup_distinct`), and in the
order in which they first occur (`pairwise_idxOf_distinct`). The tables of a
query are such a list, and so are the keys of a row, whatever is written to it
(`OrderedMap.keys_insertAll`).

Key theorems: `Sql.mem_distinct`, `Sql.distinct_concat`, `Sql.nodup_distinct`,
`Sql.pairwise_idxOf_distinct`, `OrderedMap.keys_insertAll`.
-/
import DocumentSql.Proofs.OrderedMap
import DocumentSql.Sql.Parser
import Mathlib.Data.List.Induction

namespace DocumentSql
namespace Sql

theorem mem_foldl_distinct {x : String} : ∀ (xs seen : List String),
    x ∈ xs.foldl (fun seen x => if seen.contains x then seen else seen ++ [x]) seen ↔
      x ∈ seen ∨ x ∈ xs
  | [], seen => by simp
  | y :: xs, seen => by
    rw [List.foldl_cons, mem_foldl_distinct xs, List.mem_cons, ← or_assoc]
    refine or_congr_left ?_
    split
    · rename_i hy
      constructor
      · exact .inl
      · rintro (h | rfl)
        · exact h
        · exact List.contains_iff_mem.mp hy
    · rw [List.mem_append, List.mem_singleton]

theorem mem_distinct {x : String} {xs : List String} : x ∈ distinct xs ↔ x ∈ xs := by
  rw [distinct, mem_foldl_distinct, or_iff_right List.not_mem_nil]

theorem distinct_concat (xs : List String) (x : String) :
    distinct (xs ++ [x]) = if x ∈ xs then distinct xs else distinct xs ++ [x] := by
  have hstep : distinct (xs ++ [x]) =
      if (distinct xs).contains x then distinct xs else distinct xs ++ [x] := by
    rw [distinct, List.foldl_concat]
    rfl
  rw [hstep]
  simp only [List.contains_iff_mem, mem_distinct]

/-- What is kept of a list is in the order in which it first occurs there. -/
theorem pairwise_idxOf_distinct (xs : List String) :
    (distinct xs).Pairwise fun x y => xs.idxOf x < xs.idxOf y := by
  induction xs using List.reverseRecOn with
  | nil => exact List.Pairwise.nil
  | append_singleton xs x ih =>
    have hold : ∀ y ∈ distinct xs, (xs ++ [x]).idxOf y = xs.idxOf y := by
      intro y hy
      exact List.idxOf_append_of_mem (mem_distinct.mp hy)
    have hbefore : (distinct xs).Pairwise fun y z => (xs ++ [x]).idxOf y < (xs ++ [x]).idxOf z := by
      refine ih.imp_of_mem ?_
      intro y z hy hz hlt
      rwa [hold y hy, hold z hz]
    rw [distinct_concat]
    split
    · exact hbefore
    · rename_i hx
      refine List.pairwise_append.mpr ⟨hbefore, List.pairwise_singleton _ _, ?_⟩
      intro y hy z hz
      obtain rfl := List.mem_singleton.mp hz
      have hlast : (xs ++ [z]).idxOf z = xs.length := by simp [List.idxOf_append, hx]
      rw [hold y hy, hlast]
      exact List.idxOf_lt_length_iff.mpr (mem_distinct.mp hy)

theorem nodup_distinct (xs : List String) : (distinct xs).Nodup := by
  refine (pairwise_idxOf_distinct xs).imp ?_
  rintro x y hlt rfl
  exact absurd hlt (Nat.lt_irrefl _)

theorem distinct_of_nodup {xs : List String} (h : xs.Nodup) : distinct xs = xs := by
  induction xs using List.reverseRecOn with
  | nil => rfl
  | append_singleton xs x ih =>
    have hx : x ∉ xs := fun hmem => (List.nodup_append.mp h).2.2 x hmem x List.mem_cons_self rfl
    rw [distinct_concat, if_neg hx, ih (List.nodup_append.mp h).1]

theorem distinct_distinct_append (xs ys : List String) :
    distinct (distinct xs ++ ys) = distinct (xs ++ ys) := by
  induction ys using List.reverseRecOn with
  | nil => rw [List.append_nil, List.append_nil, distinct_of_nodup (nodup_distinct xs)]
  | append_singleton ys y ih =>
    rw [← List.append_assoc, ← List.append_assoc, distinct_concat, distinct_concat, ih]
    simp only [List.mem_append, mem_distinct]

theorem distinct_append_distinct (xs ys : List String) :
    distinct (xs ++ distinct ys) = distinct (xs ++ ys) := by
  induction ys using List.reverseRecOn with
  | nil => rfl
  | append_singleton ys y ih =>
    rw [← List.append_assoc, distinct_concat, distinct_concat]
    by_cases hold : y ∈ ys
    · rw [if_pos hold, if_pos (List.mem_append_right xs hold), ih]
    · rw [if_neg hold, ← List.append_assoc, distinct_concat, ih]
      simp only [List.mem_append, mem_distinct]

/-- The first text of a list is kept first. -/
theorem head?_distinct (xs : List String) : (distinct xs).head? = xs.head? := by
  induction xs using List.reverseRecOn with
  | nil => rfl
  | append_singleton xs x ih =>
    rw [distinct_concat]
    cases xs with
    | nil => rfl
    | cons y ys =>
      split
      · exact ih
      · rw [List.head?_append, ih]
        rfl

/-- A search stops at the same text, repeated or not. -/
theorem find?_distinct (P : String → Bool) (xs : List String) :
    (distinct xs).find? P = xs.find? P := by
  induction xs using List.reverseRecOn with
  | nil => rfl
  | append_singleton xs x ih =>
    rw [distinct_concat, List.find?_append]
    split
    · rename_i hx
      rw [ih]
      by_cases hP : P x = true
      · have hfound : xs.find? P ≠ none := by
          rw [Ne, List.find?_eq_none]
          exact fun hnone => hnone x hx hP
        obtain ⟨y, hy⟩ := Option.ne_none_iff_exists'.mp hfound
        rw [hy, Option.some_or]
      · simp [hP]
    · rw [List.find?_append, ih]

end Sql

namespace OrderedMap

variable {β : Type*}

/-- Several writes leave the keys as they are and put new ones behind them, in the order in which
these first occur. -/
theorem keys_insertAll (m : OrderedMap String β) (es : List (String × β)) :
    (m.insertAll es).keys = Sql.distinct (m.keys ++ es.map Prod.fst) := by
  induction es using List.reverseRecOn with
  | nil =>
    have hkeys : m.keys.Nodup := m.nodup_keys
    rw [List.map_nil, List.append_nil, Sql.distinct_of_nodup hkeys]
    rfl
  | append_singleton es e ih =>
    have hlast : m.insertAll (es ++ [e]) = (m.insertAll es).insert e.1 e.2 := by
      rw [insertAll_append]
      rfl
    rw [hlast, keys_insert, ih, List.map_append, List.map_singleton, ← List.append_assoc,
      Sql.distinct_concat]
    simp only [Sql.mem_distinct]

theorem keys_ofList (es : List (String × β)) :
    (ofList es).keys = Sql.distinct (es.map Prod.fst) := keys_insertAll empty es

end OrderedMap

end DocumentSql
