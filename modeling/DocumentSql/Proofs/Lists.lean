/-
# Facts about lists

What the other modules need of lists and the core library does not have: where
an element of a matched list comes from, how far a separator determines what is
before it, a search that can find one element only, what every step of a fold
that can fail keeps, and when a map that can fail does not.

Key theorems: `exists_of_mem_forall₂`, `append_cons_inj_of_notMem_left`,
`takeWhile_append_of_ends`, `foldlM_induction`, `mapM_eq_ok_iff`,
`mapM_eq_ok_map`.
-/
import Mathlib.Data.List.Find
import Mathlib.Data.List.Forall2
import Mathlib.Data.List.TakeWhile

namespace DocumentSql

variable {α β : Type*}

theorem exists_of_mem_forall₂ {R : α → β → Prop} {as : List α} {bs : List β}
    (h : List.Forall₂ R as bs) {b : β} (hb : b ∈ bs) : ∃ a ∈ as, R a b := by
  induction h with
  | nil => cases hb
  | cons hr _ ih =>
    rcases List.mem_cons.mp hb with rfl | hb
    · exact ⟨_, List.mem_cons_self, hr⟩
    · obtain ⟨a, ha, h⟩ := ih hb
      exact ⟨a, List.mem_cons_of_mem _ ha, h⟩

theorem flatMap_filter (f : α → Bool) (g : α → List β) (xs : List α) :
    (xs.filter f).flatMap g = xs.flatMap fun x => if f x then g x else [] := by
  induction xs with
  | nil => rfl
  | cons x xs ih => cases h : f x <;> simp [h, ih]

/-- Elements that are not to be changed stay as they are. -/
theorem map_ite_of_forall_not {p : α → Prop} [DecidablePred p] (f : α → α) {xs : List α}
    (h : ∀ x ∈ xs, ¬ p x) : (xs.map fun x => if p x then f x else x) = xs := by
  conv_rhs => rw [← List.map_id xs]
  exact List.map_congr_left fun x hx => if_neg (h x hx)

/-- Two lists cut at the same separator have the same parts, if it is in neither first part. -/
theorem append_cons_inj_of_notMem_left {x : α} : ∀ {a a' b b' : List α},
    x ∉ a → x ∉ a' → a ++ x :: b = a' ++ x :: b' → a = a' ∧ b = b'
  | [], [], _, _, _, _, he => ⟨rfl, (List.cons.inj he).2⟩
  | [], y :: _, _, _, _, h', he => absurd (List.mem_cons.mpr (.inl (List.cons.inj he).1)) h'
  | y :: _, [], _, _, h, _, he => absurd (List.mem_cons.mpr (.inl (List.cons.inj he).1.symm)) h
  | y :: a, y' :: a', _, _, h, h', he => by
    rw [List.mem_cons, not_or] at h h'
    obtain ⟨hy, ht⟩ := List.cons.inj he
    obtain ⟨ha, hb⟩ := append_cons_inj_of_notMem_left h.2 h'.2 ht
    exact ⟨by rw [hy, ha], hb⟩

/-- What passes a test is taken off the front of a list, if what follows begins with an element that
does not pass. -/
theorem takeWhile_append_of_ends {f : α → Bool} {xs ys : List α} (hxs : ∀ x ∈ xs, f x = true)
    (hys : ∀ y ∈ ys.head?, f y = false) :
    (xs ++ ys).takeWhile f = xs ∧ (xs ++ ys).dropWhile f = ys := by
  rw [List.takeWhile_append_of_pos hxs, List.dropWhile_append_of_pos hxs]
  cases ys with
  | nil => simp
  | cons y ys => simp [hys y rfl]

theorem take_take_append (n : Nat) (xs ys : List α) :
    (xs.take n ++ ys).take n = (xs ++ ys).take n := by
  simp only [List.take_append, List.take_take, Nat.min_self, List.length_take]
  congr 2
  omega

theorem find?_of_unique {f : α → Bool} {x : α} {xs : List α} (hx : x ∈ xs)
    (hf : f x = true) (hu : ∀ y ∈ xs, f y = true → y = x) : xs.find? f = some x := by
  cases h : xs.find? f with
  | none => exact absurd hf (by simpa using List.find?_eq_none.mp h x hx)
  | some y => rw [hu y (List.mem_of_find?_eq_some h) (List.find?_some h)]

theorem findSome?_congr {f g : α → Option β} : ∀ {xs : List α}, (∀ x ∈ xs, f x = g x) →
    xs.findSome? f = xs.findSome? g
  | [], _ => rfl
  | x :: xs, h => by
    rw [List.forall_mem_cons] at h
    rw [List.findSome?_cons, List.findSome?_cons, h.1, findSome?_congr h.2]

/-- What holds at the start of a fold that can fail, and is kept by each of its steps, holds at
its end. -/
theorem foldlM_induction {ε : Type*} {P : β → Prop} {f : β → α → Except ε β}
    (hstep : ∀ b a b', P b → f b a = .ok b' → P b') : ∀ {as : List α} {b b' : β}, P b →
      as.foldlM f b = .ok b' → P b'
  | [], b, b', hb, h => by
    obtain rfl : b = b' := Except.ok.inj h
    exact hb
  | a :: as, b, b', hb, h => by
    rw [List.foldlM_cons] at h
    cases hf : f b a with
    | error e => rw [hf] at h; cases h
    | ok c =>
      rw [hf] at h
      exact foldlM_induction hstep (hstep b a c hb hf) h

theorem mapM_eq_ok_iff {ε : Type*} {f : α → Except ε β} : ∀ {as : List α} {bs : List β},
    as.mapM f = .ok bs ↔ List.Forall₂ (fun a b => f a = .ok b) as bs
  | [], bs => by
    rw [List.mapM_nil, List.forall₂_nil_left_iff]
    exact ⟨fun h => (Except.ok.inj h).symm, fun h => congrArg Except.ok h.symm⟩
  | a :: as, bs => by
    rw [List.mapM_cons, List.forall₂_cons_left_iff]
    constructor
    · intro h
      cases hf : f a with
      | error e => rw [hf] at h; cases h
      | ok b =>
        cases has : as.mapM f with
        | error e => rw [hf, has] at h; cases h
        | ok rest =>
          rw [hf, has] at h
          exact ⟨b, rest, rfl, mapM_eq_ok_iff.mp has, (Except.ok.inj h).symm⟩
    · rintro ⟨b, rest, hf, hrest, rfl⟩
      rw [hf, mapM_eq_ok_iff.mpr hrest]
      rfl

/-- A map that does not fail on any element is a map. -/
theorem mapM_eq_ok_map {ε : Type*} {f : α → Except ε β} {g : α → β} {as : List α}
    (h : ∀ a ∈ as, f a = .ok (g a)) : as.mapM f = .ok (as.map g) :=
  mapM_eq_ok_iff.mpr (List.forall₂_map_right_iff.mpr (List.forall₂_same.mpr h))

end DocumentSql
