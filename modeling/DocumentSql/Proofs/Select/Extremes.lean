/-
# Least and greatest values

MIN and MAX keep the first number that no other one beats, so that all numbers
in front of it are worse and none behind it is better (`Extreme.leads_best`);
it is shown as it is if all numbers are integers, and as a double if not
(`Extreme.extremeOf_cases`).
Numbers are told apart as doubles. Among integers alone the value is one of
them, and all others are on the right side of it or have the same double, in
which case it is the first of these (`aggregateRows_extreme`). Up to `2^53` in
size no two integers have the same double; beyond, the order of the rows
decides (`aggregateRows_min_neighbours`).

Key definitions: `Binary64.place`, `Extreme.Leads`, `IsExtremeOf`.
Key theorems: `Binary64.place_ofInt_le_iff`, `Extreme.leads_best`,
`aggregateRows_extreme`.
-/
import DocumentSql.Proofs.Select.GroupValues
import DocumentSql.Proofs.Scalar

namespace DocumentSql

/-! ### The places of doubles -/

namespace Binary64

/-- The place of a number in the order of the numbers. -/
def place : Binary64 → Int
  | .nan => 0
  | .signed negative m => rank negative m

theorem below_iff {x y : Binary64} (hx : x.isNaN = false) (hy : y.isNaN = false) :
    x.below y = true ↔ x.place < y.place := by
  cases x with
  | nan => cases hx
  | signed s a =>
    cases y with
    | nan => cases hy
    | signed t b => simp [below, compare?, place, compare_lt_iff_lt]

theorem above_iff {x y : Binary64} (hx : x.isNaN = false) (hy : y.isNaN = false) :
    x.above y = true ↔ y.place < x.place := by
  cases x with
  | nan => cases hx
  | signed s a =>
    cases y with
    | nan => cases hy
    | signed t b => simp [above, compare?, place, compare_gt_iff_gt]

/-- The doubles of integers are in their order, up to integers with the same double. -/
theorem place_ofInt_le_iff (a b : Int) :
    (ofInt a).place ≤ (ofInt b).place ↔ a ≤ b ∨ ofInt a = ofInt b := by
  constructor
  · intro h
    rcases Int.le_total a b with hab | hba
    · exact .inl hab
    · have hrank := le_antisymm h (rank_le_rank hba)
      exact .inr (ofInt_eq_of_rank_eq hba hrank.symm).symm
  · rintro (hab | heq)
    · exact rank_le_rank hab
    · rw [heq]

end Binary64

/-! ### The number that no other one beats -/

namespace Aggregate.Extreme

/-- `better` asks for the smaller key. -/
def GoesBy (better : Binary64 → Binary64 → Bool) (key : Binary64 → Int) : Prop :=
  ∀ x y, x.isNaN = false → y.isNaN = false → (better x y = true ↔ key x < key y)

theorem below_goesBy : GoesBy Binary64.below Binary64.place :=
  fun _ _ => Binary64.below_iff

theorem above_goesBy : GoesBy Binary64.above fun x => -x.place := by
  intro x y hx hy
  rw [Binary64.above_iff hx hy]
  exact Int.neg_lt_neg_iff.symm

/-- A value with its number leads: those in front of it have greater keys, those behind it have no
smaller ones. -/
def Leads (key : Binary64 → Int) (vs : List Scalar) (best : Binary64 × Scalar) : Prop :=
  best.2.number? = some best.1 ∧ ∃ before behind, vs = before ++ best.2 :: behind ∧
    (∀ v ∈ before, ∀ x, v.number? = some x → key best.1 < key x) ∧
    ∀ v ∈ behind, ∀ x, v.number? = some x → key best.1 ≤ key x

variable {better : Binary64 → Binary64 → Bool} {key : Binary64 → Int}

theorem Leads.le {vs : List Scalar} {best : Binary64 × Scalar} (h : Leads key vs best) :
    ∀ v ∈ vs, ∀ x, v.number? = some x → key best.1 ≤ key x := by
  obtain ⟨hbest, before, behind, rfl, hbefore, hbehind⟩ := h
  intro v hv x hx
  rcases List.mem_append.mp hv with hv | hv
  · exact Int.le_of_lt (hbefore v hv x hx)
  rcases List.mem_cons.mp hv with rfl | hv
  · rw [hbest] at hx
    rw [Option.some.inj hx]
  · exact hbehind v hv x hx

theorem Leads.mem {vs : List Scalar} {best : Binary64 × Scalar} (h : Leads key vs best) :
    best.2 ∈ vs := by
  obtain ⟨-, before, behind, rfl, -, -⟩ := h
  exact List.mem_append_right before List.mem_cons_self

/-- A value that is not better stays behind. -/
theorem Leads.concat {vs : List Scalar} {best : Binary64 × Scalar} (h : Leads key vs best)
    {v : Scalar} (hv : ∀ x, v.number? = some x → key best.1 ≤ key x) :
    Leads key (vs ++ [v]) best := by
  obtain ⟨hbest, before, behind, rfl, hbefore, hbehind⟩ := h
  refine ⟨hbest, before, behind ++ [v], by simp, hbefore, fun w hw => ?_⟩
  rcases List.mem_append.mp hw with hw | hw
  · exact hbehind w hw
  · rw [List.mem_singleton.mp hw]
    exact hv

/-- A value that is better than all in front of it takes the lead. -/
theorem leads_concat {vs : List Scalar} {v : Scalar} {x : Binary64} (hx : v.number? = some x)
    (hbefore : ∀ w ∈ vs, ∀ y, w.number? = some y → key x < key y) :
    Leads key (vs ++ [v]) (x, v) :=
  ⟨hx, vs, [], rfl, hbefore, by simp⟩

theorem add_of_number?_eq_none {v : Scalar} (hv : v.number? = none) (e : Extreme) :
    e.add better v = e := by
  simp only [add, hv]

theorem best_add {v : Scalar} {x : Binary64} (hv : v.number? = some x) (e : Extreme) :
    (e.add better v).best =
      match e.best with
      | none => some (x, v)
      | some best => if better x best.1 then some (x, v) else some best := by
  simp only [add, hv]
  cases e.best <;> rfl

/-- Either no value is a number, or the best one leads. -/
theorem leads_best (h : GoesBy better key) (vs : List Scalar) :
    (vs.foldl (add better) ⟨none, true⟩).best = none ∧ (∀ v ∈ vs, v.number? = none) ∨
      ∃ best, (vs.foldl (add better) ⟨none, true⟩).best = some best ∧ Leads key vs best := by
  induction vs using List.reverseRecOn with
  | nil => exact .inl ⟨rfl, by simp⟩
  | append_singleton vs v ih =>
    rw [List.foldl_concat]
    cases hv : v.number? with
    | none =>
      rw [add_of_number?_eq_none hv]
      rcases ih with ⟨hbest, hnone⟩ | ⟨best, hbest, hleads⟩
      · exact .inl ⟨hbest, List.forall_mem_append.mpr ⟨hnone, by simpa using hv⟩⟩
      · exact .inr ⟨best, hbest, hleads.concat (by simp [hv])⟩
    | some x =>
      rw [best_add hv]
      right
      rcases ih with ⟨hbest, hnone⟩ | ⟨best, hbest, hleads⟩
      · -- the first number leads, as all in front of it are none
        refine ⟨(x, v), by rw [hbest], leads_concat hv fun w hw y hy => ?_⟩
        rw [hnone w hw] at hy
        cases hy
      · have hbetter : better x best.1 = true ↔ key x < key best.1 :=
          h x best.1 (Scalar.isNaN_of_number? hv) (Scalar.isNaN_of_number? hleads.1)
        by_cases hlt : key x < key best.1
        · -- better than the best so far, and so than all that this one leads
          refine ⟨(x, v), by simp [hbest, hbetter.mpr hlt], leads_concat hv fun w hw y hy => ?_⟩
          exact Int.lt_of_lt_of_le hlt (hleads.le w hw y hy)
        · refine ⟨best, by simp [hbest, mt hbetter.mp hlt], hleads.concat fun y hy => ?_⟩
          rw [hv] at hy
          obtain rfl := Option.some.inj hy
          omega

theorem isInt_iff (v : Scalar) : isInt v = true ↔ ∃ i, v = .int i := by
  cases v <;> simp [isInt]

/-- All numbers so far are integers. -/
theorem allInt_foldl_add (vs : List Scalar) :
    (vs.foldl (add better) ⟨none, true⟩).allInt = true ↔ OnlyIntegers vs := by
  induction vs using List.reverseRecOn with
  | nil => simp [OnlyIntegers]
  | append_singleton vs v ih =>
    rw [List.foldl_concat, onlyIntegers_concat, ← ih]
    cases hv : v.number? with
    | none => simp [add_of_number?_eq_none hv]
    | some x => simp [add, hv, isInt_iff]

/-- Either no value is a number and null is shown, or one leads: it is shown itself if all numbers
are integers, and its number as a double if not. -/
theorem extremeOf_cases (h : GoesBy better key) (vs : List Scalar) :
    extremeOf better vs = .null ∧ (∀ v ∈ vs, v.number? = none) ∨
      ∃ best, Leads key vs best ∧
        (OnlyIntegers vs ∧ (∃ i, best.2 = .int i) ∧ extremeOf better vs = best.2 ∨
          ¬ OnlyIntegers vs ∧ extremeOf better vs = .float best.1) := by
  rcases leads_best h vs with ⟨hbest, hnone⟩ | ⟨⟨x, v⟩, hbest, hleads⟩
  · exact .inl ⟨by simp [extremeOf, toScalar, hbest], hnone⟩
  · refine .inr ⟨(x, v), hleads, ?_⟩
    have hall : (vs.foldl (add better) ⟨none, true⟩).allInt = true ↔ OnlyIntegers vs :=
      allInt_foldl_add vs
    by_cases honly : OnlyIntegers vs
    · have hint := honly v hleads.mem (by simp [hleads.1])
      exact .inl ⟨honly, hint, by
        simp [extremeOf, toScalar, hbest, hall.mpr honly, (isInt_iff v).mpr hint]⟩
    · have hmixed := Bool.eq_false_iff.mpr (mt hall.mp honly)
      exact .inr ⟨honly, by simp [extremeOf, toScalar, hbest, hmixed]⟩

/-- Among integers alone, the value is the one that leads. -/
theorem exists_extremeOf_eq_int (h : GoesBy better key) {vs : List Scalar}
    (honly : OnlyIntegers vs) {i : Int64} (hi : .int i ∈ vs) :
    ∃ m, extremeOf better vs = .int m ∧ Leads key vs (.ofInt m.toInt, .int m) := by
  rcases extremeOf_cases h vs with
    ⟨-, hnone⟩ | ⟨⟨x, v⟩, hleads, ⟨-, ⟨m, hm⟩, hvalue⟩ | ⟨hnot, -⟩⟩
  · exact absurd (hnone _ hi) (Option.some_ne_none _)
  · obtain rfl : v = .int m := hm
    have hnumber : Scalar.number? (.int m) = some x := hleads.1
    obtain rfl := Option.some.inj hnumber
    exact ⟨m, hvalue, hleads⟩
  · exact absurd honly hnot

end Aggregate.Extreme

/-! ### Integers -/

/-- An integer among the values is on the right side of the others, as far as doubles tell: `ahead`
is the relation in which it is to stand to them. -/
structure IsExtremeOf (ahead : Int → Int → Prop) (vs : List Scalar) (m : Int64) : Prop where
  /-- It is one of the values, and the first of the integers with its double. -/
  exists_split : ∃ before behind, vs = before ++ .int m :: behind ∧
    ∀ i, .int i ∈ before → Binary64.ofInt i.toInt ≠ Binary64.ofInt m.toInt
  ahead_or_eq : ∀ i, .int i ∈ vs →
    ahead m.toInt i.toInt ∨ Binary64.ofInt m.toInt = Binary64.ofInt i.toInt
  /-- It is on the right side of all if it can be told from them. -/
  ahead : (∀ i, .int i ∈ vs → Scalar.IsExactInt i) ∨
      (∀ i, .int i ∈ vs → Scalar.IsToldFrom i m) →
    ∀ i, .int i ∈ vs → ahead m.toInt i.toInt

theorem isExtremeOf_of_leads {key : Binary64 → Int} (ahead : Int → Int → Prop)
    (hkey : ∀ a b, key (.ofInt a) ≤ key (.ofInt b) ↔ ahead a b ∨ Binary64.ofInt a = Binary64.ofInt b)
    (hrefl : ∀ a, ahead a a) {vs : List Scalar} {m : Int64}
    (h : Aggregate.Extreme.Leads key vs (.ofInt m.toInt, .int m)) : IsExtremeOf ahead vs m := by
  have hahead : ∀ i, .int i ∈ vs →
      ahead m.toInt i.toInt ∨ Binary64.ofInt m.toInt = Binary64.ofInt i.toInt :=
    fun i hi => (hkey _ _).mp (h.le _ hi _ rfl)
  refine ⟨?_, hahead, fun htold i hi => ?_⟩
  · obtain ⟨-, before, behind, hsplit, hbefore, -⟩ := h
    refine ⟨before, behind, hsplit, fun i hi heq => ?_⟩
    have hlt := hbefore _ hi _ rfl
    simp only [heq] at hlt
    omega
  · have htold : Scalar.IsToldFrom i m := by
      rcases htold with hexact | htold
      · exact Scalar.isToldFrom_of_isExactInt (hexact i hi) (hexact m h.mem)
      · exact htold i hi
    rcases hahead i hi with hle | heq
    · exact hle
    · -- the same double is that of `m` itself
      rw [htold heq.symm]
      exact hrefl _

variable {scope : Scope} {groupBy : List String} {rows : List Row}

/-- MIN and MAX of integers are among the integers, and on the right side of those that have other
doubles. -/
theorem aggregateRows_extreme {a : Aggregate} {ahead : Int → Int → Prop}
    (ha : a.function = .min ∧ ahead = (· ≤ ·) ∨ a.function = .max ∧ ahead = (· ≥ ·))
    (before : List Aggregate) {behind : List Aggregate}
    (hlast : ∀ b ∈ behind, b.outputName ≠ a.outputName) (hrows : rows ≠ []) :
    List.Forall₂ (fun group out => OnlyIntegers (columnCells scope a.column group) →
        (∃ i, .int i ∈ columnCells scope a.column group) →
          ∃ m, out.get? a.outputName = some (.int m) ∧
            IsExtremeOf ahead (columnCells scope a.column group) m)
      (groupsOf scope groupBy rows)
      (aggregateRows scope (before ++ a :: behind) groupBy rows) := by
  have hcells : a.countsRows = false := by
    rcases ha with ⟨h, -⟩ | ⟨h, -⟩ <;> simp [Aggregate.countsRows, h]
  refine (aggregateRows_values hcells before hlast hrows).imp fun group out hout honly => ?_
  rintro ⟨i, hi⟩
  rcases ha with ⟨hmin, rfl⟩ | ⟨hmax, rfl⟩
  · obtain ⟨m, hm, hleads⟩ :=
      Aggregate.Extreme.exists_extremeOf_eq_int Aggregate.Extreme.below_goesBy honly hi
    refine ⟨m, ?_, isExtremeOf_of_leads _ Binary64.place_ofInt_le_iff le_refl hleads⟩
    rw [hout, hmin, ← hm]
    rfl
  · obtain ⟨m, hm, hleads⟩ :=
      Aggregate.Extreme.exists_extremeOf_eq_int Aggregate.Extreme.above_goesBy honly hi
    have hkey : ∀ b c, -(Binary64.ofInt b).place ≤ -(Binary64.ofInt c).place ↔
        b ≥ c ∨ Binary64.ofInt b = Binary64.ofInt c := by
      intro b c
      rw [Int.neg_le_neg_iff, Binary64.place_ofInt_le_iff, eq_comm]
    refine ⟨m, ?_, isExtremeOf_of_leads (· ≥ ·) hkey le_refl hleads⟩
    rw [hout, hmax, ← hm]
    rfl

namespace Sample

def visitScope : Scope := ⟨["visits"], .ofList [("v", "visits")]⟩

def visitExtremes : List Aggregate := [⟨.min, "hours", some "least"⟩, ⟨.max, "v.hours", none⟩]

theorem aggregateRows_extreme_visits :
    aggregateRows visitScope visitExtremes ["city"] visits =
        [.ofList [("city", .text "Rome"), ("least", .int 3), ("max_v.hours", .int 5)],
          .ofList [("city", .null), ("least", .int 4), ("max_v.hours", .int 4)]] ∧
      visits ≠ [] ∧
      List.Forall₂ (fun group out => OnlyIntegers (columnCells visitScope "v.hours" group) →
          (∃ i, .int i ∈ columnCells visitScope "v.hours" group) →
            ∃ m, out.get? "max_v.hours" = some (.int m) ∧
              IsExtremeOf (· ≥ ·) (columnCells visitScope "v.hours" group) m)
        (groupsOf visitScope ["city"] visits)
        (aggregateRows visitScope visitExtremes ["city"] visits) := by
  have hrows : visits ≠ [] := by simp [visits]
  have hlast : ∀ b ∈ ([] : List Aggregate), b.outputName ≠ "max_v.hours" := by simp
  exact ⟨by decide +kernel, hrows,
    aggregateRows_extreme (a := ⟨.max, "v.hours", none⟩) (.inr ⟨rfl, rfl⟩)
      [⟨.min, "hours", some "least"⟩] hlast hrows⟩

/-- Two integers with the same double. -/
def neighbours : List Row :=
  [.ofList [("n", .int 9007199254740993)], .ofList [("n", .int 9007199254740992)]]

/-- Which of the two is the least and which is the greatest depends on the order of the rows. -/
theorem aggregateRows_min_neighbours :
    columnCells ⟨["t"], .empty⟩ "n" neighbours =
        [.int 9007199254740993, .int 9007199254740992] ∧
      (aggregateRows ⟨["t"], .empty⟩ [⟨.min, "n", none⟩] [] neighbours).map (·.get? "min_n") =
        [some (.int 9007199254740993)] ∧
      (aggregateRows ⟨["t"], .empty⟩ [⟨.max, "n", none⟩] [] neighbours.reverse).map
          (·.get? "max_n") = [some (.int 9007199254740992)] ∧
      (9007199254740992 : Int64).toInt < (9007199254740993 : Int64).toInt := by
  decide +kernel

end Sample
end DocumentSql
