/-
# Reading a column reference back

A reference `table.column` is cut at its first dot (`Column.split`) in some
places and at its last one (`Column.bareName`) in others. Both give the parts
back when the names have no dots: `split_qualified`, `bareName_qualified`. A
key `table.column` determines both names as soon as the tables have none
(`qualified_inj`), so keys of different tables never meet, and no such key is a
name without dots (`not_isDotFree_qualified`). Behind a dot it ends in its own
column and in no other one (`endsIn_qualified`).

Key definition: `Column.IsDotFree`.
Key theorems: `Column.qualified_inj`, `Column.split_qualified`,
`Column.split_eq_some`, `Column.bareName_qualified`, `Column.endsIn_qualified`.
-/
import DocumentSql.Select.Scope
import Mathlib.Data.List.Basic

namespace DocumentSql
namespace Column

/-- The name has no dot. -/
def IsDotFree (name : String) : Prop := '.' ∉ name.toList

instance (name : String) : Decidable (IsDotFree name) := by
  unfold IsDotFree
  infer_instance

/-! ### The first dot -/

theorem splitDot_eq_none_iff (cs : List Char) : splitDot cs = none ↔ '.' ∉ cs := by
  induction cs with
  | nil => simp [splitDot]
  | cons c cs ih =>
    by_cases hc : c = '.'
    · simp [splitDot, hc]
    · simp [splitDot, hc, Ne.symm hc, ih]

theorem splitDot_append {before : List Char} (h : '.' ∉ before) (behind : List Char) :
    splitDot (before ++ '.' :: behind) = some (before, behind) := by
  induction before with
  | nil => simp [splitDot]
  | cons c cs ih =>
    rw [List.mem_cons, not_or] at h
    simp [splitDot, Ne.symm h.1, ih h.2]

theorem eq_append_of_splitDot {cs before behind : List Char}
    (h : splitDot cs = some (before, behind)) : cs = before ++ '.' :: behind ∧ '.' ∉ before := by
  induction cs generalizing before with
  | nil => cases h
  | cons c cs ih =>
    by_cases hc : c = '.'
    · simp only [splitDot, hc, if_true, Option.some.injEq, Prod.mk.injEq] at h
      obtain ⟨rfl, rfl⟩ := h
      exact ⟨by rw [hc, List.nil_append], List.not_mem_nil⟩
    · simp only [splitDot, hc, if_false] at h
      obtain ⟨⟨before', behind'⟩, hs, he⟩ := Option.map_eq_some_iff.mp h
      obtain ⟨rfl, rfl⟩ := Prod.mk.inj he
      obtain ⟨h1, h2⟩ := ih hs
      refine ⟨by rw [h1, List.cons_append], ?_⟩
      rw [List.mem_cons, not_or]
      exact ⟨Ne.symm hc, h2⟩

/-! ### References with a table part -/

theorem toList_qualified (table column : String) :
    (qualified table column).toList = table.toList ++ '.' :: column.toList := by
  simp [qualified, String.toList_append]

theorem not_isDotFree_qualified (table column : String) : ¬ IsDotFree (qualified table column) := by
  simp [IsDotFree, toList_qualified]

theorem qualified_column_inj {table c c' : String} (h : qualified table c = qualified table c') :
    c = c' := by
  simpa [qualified, String.append_right_inj] using h

/-- A key determines its table and its column. -/
theorem qualified_inj {t t' c c' : String} (ht : IsDotFree t) (ht' : IsDotFree t')
    (h : qualified t c = qualified t' c') : t = t' ∧ c = c' := by
  have hs : splitDot (qualified t c).toList = splitDot (qualified t' c').toList := by rw [h]
  rw [toList_qualified, toList_qualified, splitDot_append ht, splitDot_append ht'] at hs
  simp only [Option.some.injEq, Prod.mk.injEq, String.toList_inj] at hs
  exact hs

theorem split_qualified {name column : String} (hd : IsDotFree name) (hn : name ≠ "")
    (hc : column ≠ "") : split (qualified name column) = (some name, column) := by
  have hn' : name.toList ≠ [] := by simpa using hn
  have hc' : column.toList ≠ [] := by simpa using hc
  simp [split, toList_qualified, splitDot_append hd, hn', hc']

theorem split_of_isDotFree {column : String} (h : IsDotFree column) :
    split column = (none, column) := by
  simp only [split, (splitDot_eq_none_iff column.toList).mpr h]

/-- What it means that a reference has a table part. -/
theorem split_eq_some {text name column : String} (h : split text = (some name, column)) :
    text = qualified name column ∧ IsDotFree name ∧ name ≠ "" ∧ column ≠ "" := by
  unfold split at h
  split at h
  · rename_i before behind hs
    obtain ⟨he, hd⟩ := eq_append_of_splitDot hs
    split at h
    · simp at h
    · rename_i hb
      simp only [Prod.mk.injEq, Option.some.injEq] at h
      obtain ⟨rfl, rfl⟩ := h
      simp only [Bool.or_eq_true, List.isEmpty_iff, not_or] at hb
      refine ⟨?_, ?_, ?_, ?_⟩
      · rw [← String.toList_inj, toList_qualified, he]
        simp
      · simpa [IsDotFree] using hd
      · simpa [← String.toList_inj] using hb.1
      · simpa [← String.toList_inj] using hb.2
  · simp at h

/-- A reference without a table part is its own column. -/
theorem split_eq_none {text column : String} (h : split text = (none, column)) :
    column = text := by
  unfold split at h
  split at h
  · split at h
    · simp only [Prod.mk.injEq, true_and] at h
      exact h.symm
    · simp at h
  · simp only [Prod.mk.injEq, true_and] at h
    exact h.symm

/-- A reference without a table part has no dot, or nothing on one side of its first dot. -/
theorem isDotFree_or_of_split_eq_none {text column : String} (h : split text = (none, column)) :
    IsDotFree text ∨
      ∃ table name, text = qualified table name ∧ IsDotFree table ∧ (table = "" ∨ name = "") := by
  cases hs : splitDot text.toList with
  | none => exact .inl ((splitDot_eq_none_iff _).mp hs)
  | some parts =>
    obtain ⟨before, behind⟩ := parts
    obtain ⟨he, hd⟩ := eq_append_of_splitDot hs
    refine .inr ⟨String.ofList before, String.ofList behind, ?_, by simpa [IsDotFree] using hd, ?_⟩
    · rw [← String.toList_inj, toList_qualified, he]
      simp
    · simp only [split, hs] at h
      split at h
      · rename_i hempty
        simpa [← String.toList_inj] using hempty
      · simp at h

/-! ### The last dot -/

theorem afterLastDot_append {cs : List Char} (h : '.' ∉ cs) (before : List Char) :
    afterLastDot (before ++ '.' :: cs) = cs := by
  have hrev : ∀ x ∈ cs.reverse, (x != '.') = true := by
    intro x hx
    rw [bne_iff_ne]
    rintro rfl
    exact h (List.mem_reverse.mp hx)
  rw [afterLastDot, List.reverse_append, List.reverse_cons, List.append_assoc,
    List.takeWhile_append_of_pos hrev]
  simp

theorem bareName_qualified {column : String} (h : IsDotFree column) (table : String) :
    bareName (qualified table column) = column := by
  rw [bareName, toList_qualified, afterLastDot_append h, String.ofList_toList]

theorem endsIn_iff (key name : String) :
    endsIn key name = true ↔ ∃ before, key.toList = before ++ '.' :: name.toList := by
  unfold endsIn
  rw [List.isSuffixOf_iff_suffix]
  exact exists_congr fun before => eq_comm

/-- A name without dots ends in no other name behind a dot. -/
theorem endsIn_of_isDotFree {key : String} (h : IsDotFree key) (name : String) :
    endsIn key name = false := by
  rw [Bool.eq_false_iff, Ne, endsIn_iff]
  rintro ⟨before, hkey⟩
  apply h
  rw [hkey]
  simp

/-- A key `table.column` ends in its column behind a dot. -/
theorem endsIn_qualified {column name : String} (hc : IsDotFree column) (hn : IsDotFree name)
    (table : String) : endsIn (qualified table column) name = true ↔ column = name := by
  rw [endsIn_iff, toList_qualified]
  constructor
  · rintro ⟨before, h⟩
    have hlast : afterLastDot (table.toList ++ '.' :: column.toList) =
        afterLastDot (before ++ '.' :: name.toList) := by rw [h]
    rwa [afterLastDot_append hc, afterLastDot_append hn, String.toList_inj] at hlast
  · rintro rfl
    exact ⟨table.toList, rfl⟩

/-- What stands behind the last dot has none. -/
theorem isDotFree_bareName (text : String) : IsDotFree (bareName text) := by
  intro h
  rw [bareName, String.toList_ofList, afterLastDot, List.mem_reverse] at h
  simpa using List.all_eq_true.mp List.all_takeWhile _ h

end Column
end DocumentSql
