/-
# What an ordered map holds after several writes

`OrderedMap.insertAll` writes pairs one after the other. A key that none of
the pairs has keeps its value (`get?_insertAll_of_notMem`), and a key whose
pairs all carry one value has that value afterwards (`get?_insertAll_of_forall`).
A look-up finds exactly the pairs of the map (`get?_eq_some_iff`).

Key theorems: `OrderedMap.get?_eq_some_iff`, `OrderedMap.get?_insertAll_of_notMem`,
`OrderedMap.get?_insertAll_of_forall`, `OrderedMap.get?_insertAll_eq_some`.
-/
import DocumentSql.OrderedMap
import Mathlib.Data.List.Nodup
import Mathlib.Logic.Function.Basic

namespace DocumentSql

universe u v

namespace Entries

variable {κ : Type u} {β : Type v} [DecidableEq κ]

theorem mem_of_find? {key : κ} {value : β} {es : List (κ × β)}
    (h : find? key es = some value) : (key, value) ∈ es := by
  induction es with
  | nil => simp [find?] at h
  | cons e rest ih =>
    obtain ⟨k, v⟩ := e
    by_cases hk : k = key
    · have hv : v = value := by simpa [find?, hk] using h
      rw [hk, hv]
      exact List.mem_cons_self
    · exact List.mem_cons_of_mem _ (ih (by simpa [find?, hk] using h))

theorem find?_of_mem {key : κ} {value : β} {es : List (κ × β)}
    (hn : (es.map Prod.fst).Nodup) (h : (key, value) ∈ es) : find? key es = some value := by
  induction es with
  | nil => cases h
  | cons e rest ih =>
    obtain ⟨k, v⟩ := e
    rw [List.map_cons, List.nodup_cons] at hn
    rcases List.mem_cons.mp h with he | hr
    · obtain ⟨rfl, rfl⟩ := Prod.mk.inj he
      simp [find?]
    · have hne : k ≠ key := by
        rintro rfl
        exact hn.1 (List.mem_map.mpr ⟨_, hr, rfl⟩)
      simp only [find?, hne, if_false]
      exact ih hn.2 hr

/-- Looking a key up in pairs that are made from a list of keys. -/
theorem find?_map_pair {γ : Type*} [DecidableEq γ] (f : γ → β) (key : γ) (ks : List γ) :
    find? key (ks.map fun k => (k, f k)) = if key ∈ ks then some (f key) else none := by
  induction ks with
  | nil => rfl
  | cons k rest ih =>
    by_cases hk : k = key
    · subst hk
      simp [find?]
    · simp [find?, hk, Ne.symm hk, ih]

/-- Looking a key up in pairs whose values are mapped. -/
theorem find?_map_value {γ : Type*} (f : β → γ) (key : κ) : ∀ es : List (κ × β),
    find? key (es.map fun e => (e.1, f e.2)) = (find? key es).map f
  | [] => rfl
  | (k, v) :: es => by
    rw [List.map_cons, find?, find?, find?_map_value f key es]
    split <;> rfl

theorem put_of_notMem {key : κ} (value : β) : ∀ {es : List (κ × β)}, key ∉ es.map Prod.fst →
    put key value es = es ++ [(key, value)]
  | [], _ => rfl
  | (k, v) :: es, h => by
    rw [List.map_cons, List.mem_cons, not_or] at h
    rw [put, if_neg (Ne.symm h.1), put_of_notMem value h.2, List.cons_append]

/-- Writing to pairs that are made from a list of keys. -/
theorem put_map_pair (f : κ → β) (key : κ) (value : β) : ∀ {ks : List κ}, ks.Nodup →
    put key value (ks.map fun k => (k, f k)) =
      (if key ∈ ks then ks else ks ++ [key]).map fun k => (k, Function.update f key value k)
  | [], _ => by simp [put]
  | k :: ks, hn => by
    obtain ⟨hk, hn⟩ := List.nodup_cons.mp hn
    have hother : ∀ {k'}, k' ≠ key → Function.update f key value k' = f k' :=
      fun hne => Function.update_of_ne hne value f
    rw [List.map_cons, put]
    split
    · rename_i heq
      obtain rfl := heq
      have hrest : ∀ k' ∈ ks, (k', f k') = (k', Function.update f k value k') := by
        intro k' hk'
        rw [hother (fun he => hk (he ▸ hk'))]
      simp only [List.mem_cons, true_or, if_true, List.map_cons, Function.update_self,
        List.map_congr_left hrest]
    · rename_i hne
      rw [put_map_pair f key value hn]
      have hmem : key ∈ k :: ks ↔ key ∈ ks := by simp [Ne.symm hne]
      simp only [hmem]
      split <;> simp [hother hne]

end Entries

namespace OrderedMap

variable {κ : Type u} {β : Type v} [DecidableEq κ]

theorem entries_insert (m : OrderedMap κ β) (key : κ) (value : β) :
    (m.insert key value).entries = Entries.put key value m.entries := rfl

/-- A look-up finds exactly the pairs of the map. -/
theorem get?_eq_some_iff (m : OrderedMap κ β) (key : κ) (value : β) :
    m.get? key = some value ↔ (key, value) ∈ m.entries :=
  ⟨Entries.mem_of_find?, Entries.find?_of_mem m.nodup_keys⟩

theorem mem_values_iff (m : OrderedMap κ β) (value : β) :
    value ∈ m.values ↔ ∃ key, m.get? key = some value := by
  simp only [values, List.mem_map, get?_eq_some_iff]
  constructor
  · rintro ⟨⟨key, v⟩, h, rfl⟩
    exact ⟨key, h⟩
  · rintro ⟨key, h⟩
    exact ⟨(key, value), h, rfl⟩

theorem mem_keys_of_get? {m : OrderedMap κ β} {key : κ} {value : β}
    (h : m.get? key = some value) : key ∈ m.keys := by
  by_contra hn
  rw [(get?_eq_none_iff m key).mpr hn] at h
  cases h

theorem mem_keys_insert (m : OrderedMap κ β) (key other : κ) (value : β) :
    other ∈ (m.insert key value).keys ↔ other ∈ m.keys ∨ other = key := by
  rw [keys_insert]
  split
  · rename_i hkey
    exact ⟨.inl, fun h => h.elim id fun he => he ▸ hkey⟩
  · rw [List.mem_append, List.mem_singleton]

/-! ### Several writes -/

theorem insertAll_cons (m : OrderedMap κ β) (e : κ × β) (es : List (κ × β)) :
    m.insertAll (e :: es) = (m.insert e.1 e.2).insertAll es := rfl

theorem insertAll_append (m : OrderedMap κ β) (es fs : List (κ × β)) :
    m.insertAll (es ++ fs) = (m.insertAll es).insertAll fs := List.foldl_append

/-- Pairs with new and different keys are put behind what is there. -/
theorem entries_insertAll : ∀ (es : List (κ × β)) {m : OrderedMap κ β},
    (m.keys ++ es.map Prod.fst).Nodup → (m.insertAll es).entries = m.entries ++ es
  | [], m, _ => (List.append_nil m.entries).symm
  | e :: es, m, h => by
    rw [List.map_cons] at h
    have hnew : e.1 ∉ m.keys := fun hmem =>
      (List.nodup_append.mp h).2.2 e.1 hmem e.1 List.mem_cons_self rfl
    have hentries : (m.insert e.1 e.2).entries = m.entries ++ [e] := by
      rw [entries_insert, Entries.put_of_notMem e.2 hnew]
    have hkeys : (m.insert e.1 e.2).keys = m.keys ++ [e.1] := by
      rw [keys_insert, if_neg hnew]
    have hrest : ((m.insert e.1 e.2).keys ++ es.map Prod.fst).Nodup := by
      rw [hkeys, List.append_assoc, List.singleton_append]
      exact h
    rw [insertAll_cons, entries_insertAll es hrest, hentries, List.append_assoc,
      List.singleton_append]

/-- Pairs with different keys are a map as they are. -/
theorem entries_ofList {es : List (κ × β)} (h : (es.map Prod.fst).Nodup) :
    (ofList es).entries = es := entries_insertAll es h

omit [DecidableEq κ] in
theorem ext_entries {m m' : OrderedMap κ β} (h : m.entries = m'.entries) : m = m' := by
  cases m
  cases m'
  obtain rfl := h
  rfl

theorem ofList_entries (m : OrderedMap κ β) : ofList m.entries = m :=
  ext_entries (entries_ofList m.nodup_keys)

/-- A key that no pair has keeps its value. -/
theorem get?_insertAll_of_notMem {key : κ} : ∀ (es : List (κ × β)) (m : OrderedMap κ β),
    key ∉ es.map Prod.fst → (m.insertAll es).get? key = m.get? key
  | [], _, _ => rfl
  | e :: es, m, h => by
    rw [List.map_cons, List.mem_cons, not_or] at h
    rw [insertAll_cons, get?_insertAll_of_notMem es _ h.2, get?_insert, if_neg (Ne.symm h.1)]

/-- A key whose pairs all carry the same value has that value. -/
theorem get?_insertAll_of_forall {key : κ} {value : β} : ∀ (es : List (κ × β))
    (m : OrderedMap κ β), key ∈ es.map Prod.fst → (∀ e ∈ es, e.1 = key → e.2 = value) →
    (m.insertAll es).get? key = some value
  | [], _, h, _ => by cases h
  | e :: es, m, h, hv => by
    have hrest : ∀ e ∈ es, e.1 = key → e.2 = value :=
      fun e he => hv e (List.mem_cons_of_mem _ he)
    rw [insertAll_cons]
    by_cases hes : key ∈ es.map Prod.fst
    · exact get?_insertAll_of_forall es _ hes hrest
    · rw [List.map_cons, List.mem_cons, or_iff_left hes] at h
      rw [get?_insertAll_of_notMem es _ hes, get?_insert, if_pos h.symm,
        hv e List.mem_cons_self h.symm]

/-- A value that is found was written, or was there before. -/
theorem get?_insertAll_eq_some {key : κ} {value : β} : ∀ (es : List (κ × β))
    {m : OrderedMap κ β}, (m.insertAll es).get? key = some value →
    (key, value) ∈ es ∨ m.get? key = some value
  | [], _, h => .inr h
  | e :: es, m, h => by
    rcases get?_insertAll_eq_some es h with h | h
    · exact .inl (List.mem_cons_of_mem _ h)
    · rw [get?_insert] at h
      split at h
      · rename_i hk
        rw [← hk, ← Option.some.inj h]
        exact .inl List.mem_cons_self
      · exact .inr h

end OrderedMap
end DocumentSql
