/-
# Maps that remember the order of their keys

`OrderedMap κ β` is a list of key and value pairs in which no key occurs twice.
Writing to a key that is there replaces its value and moves nothing; a new key
goes to the end. Rows, the aliases of a query, its groups and the projects of a
store are such maps, and their order is the order in which results are shown.

Key definitions: `OrderedMap`, `OrderedMap.get?`, `OrderedMap.insert`.
Key theorems: `OrderedMap.keys_insert`, `OrderedMap.get?_insert`.
-/

namespace DocumentSql

universe u v

namespace Entries

variable {κ : Type u} {β : Type v} [DecidableEq κ]

/-- The value that stands beside the first occurrence of `key`. -/
def find? (key : κ) : List (κ × β) → Option β
  | [] => none
  | (k, v) :: rest => if k = key then some v else find? key rest

/-- Replaces the value beside `key`, or puts the pair at the end. -/
def put (key : κ) (value : β) : List (κ × β) → List (κ × β)
  | [] => [(key, value)]
  | (k, v) :: rest => if k = key then (k, value) :: rest else (k, v) :: put key value rest

theorem keys_put (key : κ) (value : β) (es : List (κ × β)) :
    (put key value es).map Prod.fst =
      if key ∈ es.map Prod.fst then es.map Prod.fst else es.map Prod.fst ++ [key] := by
  induction es with
  | nil => simp [put]
  | cons e rest ih =>
    obtain ⟨k, v⟩ := e
    by_cases h : k = key
    · simp [put, h]
    · simp only [put, h, if_false, List.map_cons, ih, List.mem_cons, Ne.symm h, false_or]
      split <;> rfl

theorem nodup_put {es : List (κ × β)} (key : κ) (value : β) (h : (es.map Prod.fst).Nodup) :
    ((put key value es).map Prod.fst).Nodup := by
  rw [keys_put]
  split
  · exact h
  · rename_i hk
    rw [List.nodup_append]
    refine ⟨h, by simp, ?_⟩
    intro a ha b hb
    rw [List.mem_singleton] at hb
    exact fun hab => hk (hb ▸ hab ▸ ha)

theorem find?_put (key other : κ) (value : β) (es : List (κ × β)) :
    find? other (put key value es) = if key = other then some value else find? other es := by
  induction es with
  | nil => simp [put, find?]
  | cons e rest ih =>
    obtain ⟨k, v⟩ := e
    by_cases h : k = key
    · subst h
      by_cases ho : k = other <;> simp [put, find?, ho]
    · by_cases ho : k = other
      · subst ho
        simp [put, find?, h, Ne.symm h]
      · simp [put, find?, h, ho, ih]

theorem find?_eq_none_iff (key : κ) (es : List (κ × β)) :
    find? key es = none ↔ key ∉ es.map Prod.fst := by
  induction es with
  | nil => simp [find?]
  | cons e rest ih =>
    obtain ⟨k, v⟩ := e
    by_cases h : k = key
    · simp [find?, h]
    · simp [find?, h, ih, Ne.symm h]

end Entries

/-- Key and value pairs in order of first insertion, each key once. -/
structure OrderedMap (κ : Type u) (β : Type v) where
  /-- The pairs, oldest key first. -/
  entries : List (κ × β)
  nodup_keys : (entries.map Prod.fst).Nodup
deriving DecidableEq

namespace OrderedMap

variable {κ : Type u} {β : Type v}

/-- The map without entries. -/
def empty : OrderedMap κ β := ⟨[], List.nodup_nil⟩

instance : Inhabited (OrderedMap κ β) := ⟨empty⟩

/-- The keys, oldest first. -/
def keys (m : OrderedMap κ β) : List κ := m.entries.map Prod.fst

/-- The values, in the order of their keys. -/
def values (m : OrderedMap κ β) : List β := m.entries.map Prod.snd

variable [DecidableEq κ]

/-- The value at `key`. -/
def get? (m : OrderedMap κ β) (key : κ) : Option β := Entries.find? key m.entries

/-- The map with `value` at `key`: in place if the key is there, else at the end. -/
def insert (m : OrderedMap κ β) (key : κ) (value : β) : OrderedMap κ β :=
  ⟨Entries.put key value m.entries, Entries.nodup_put key value m.nodup_keys⟩

/-- Writes the pairs of `es` to the map, one after the other. -/
def insertAll (m : OrderedMap κ β) (es : List (κ × β)) : OrderedMap κ β :=
  es.foldl (fun m e => m.insert e.1 e.2) m

/-- The map made by writing the pairs of `es` in order: the last value of a key stays, at the
key's first place. -/
def ofList (es : List (κ × β)) : OrderedMap κ β := empty.insertAll es

theorem keys_insert (m : OrderedMap κ β) (key : κ) (value : β) :
    (m.insert key value).keys = if key ∈ m.keys then m.keys else m.keys ++ [key] :=
  Entries.keys_put key value m.entries

theorem get?_insert (m : OrderedMap κ β) (key other : κ) (value : β) :
    (m.insert key value).get? other = if key = other then some value else m.get? other :=
  Entries.find?_put key other value m.entries

theorem get?_eq_none_iff (m : OrderedMap κ β) (key : κ) : m.get? key = none ↔ key ∉ m.keys :=
  Entries.find?_eq_none_iff key m.entries

@[simp] theorem get?_empty (key : κ) : (empty : OrderedMap κ β).get? key = none := rfl

end OrderedMap
end DocumentSql
