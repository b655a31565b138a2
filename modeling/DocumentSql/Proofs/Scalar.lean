/-
# Comparing cells

Any two cells but null have an order (`compare?_eq_none_iff`), the other way
round they have the opposite one (`compare?_swap`), and cells that joins take for
equal are equal in it (`compare?_of_looselyEquals`). What is not a number does
not come into its own here: such a double has no numeric reading and is compared
by its text.

Integers are compared as the doubles nearest to them. Up to `2^53` in size this
makes no difference (`compare?_int`); beyond, an integer with the double of
another one is taken for it (`comparedAs`, `compare?_int_eq`).

Key definitions: `Scalar.IsExactInt`, `Scalar.comparedAs`, `Scalar.IsToldFrom`.
Key theorems: `Scalar.compare?_eq_none_iff`, `Scalar.compare?_swap`,
`Scalar.looselyEquals_comm`, `Scalar.compare?_of_looselyEquals`,
`Scalar.compare?_int`, `Scalar.compare?_int_eq`.
-/
import DocumentSql.Scalar
import DocumentSql.Proofs.Binary64.Integers

namespace DocumentSql

theorem Binary64.equals_comm (x y : Binary64) : x.equals y = y.equals x := by
  unfold equals
  rw [compare?_swap x y]
  cases compare? x y with
  | none => rfl
  | some o => cases o <;> rfl

namespace Scalar

/-! ### The order of two cells -/

theorem looselyEquals_comm (a b : Scalar) : a.looselyEquals b = b.looselyEquals a := by
  cases a <;> cases b <;> simp only [looselyEquals]
  case bool.bool => exact Bool.beq_comm
  case int.int => exact Bool.beq_comm
  case float.float => exact Binary64.equals_comm _ _
  case text.text => exact Bool.beq_comm

theorem compareText_swap (a b : String) : compareText b a = (compareText a b).swap := by
  rcases Std.lt_trichotomy a b with h | rfl | h
  · simp [compareText, h, String.lt_asymm h, (Std.ne_of_lt h).symm]
  · simp [compareText]
  · simp [compareText, h, String.lt_asymm h, (Std.ne_of_lt h).symm]

theorem isNaN_of_number? {a : Scalar} {x : Binary64} (h : a.number? = some x) :
    x.isNaN = false := by
  cases a with
  | null => cases h
  | bool b => cases h
  | int i =>
    obtain rfl := Option.some.inj h
    rfl
  | float y =>
    simp only [number?] at h
    split at h
    · cases h
    · rename_i hy
      obtain rfl := Option.some.inj h
      simpa using hy
  | text s =>
    rw [number?, Option.filter_eq_some_iff] at h
    simpa using h.2

/-- Values that are compared as numbers or as shown have an order. -/
theorem compareMixed_ne_none (a b : Scalar) : compareMixed a b ≠ none := by
  unfold compareMixed
  split
  · rename_i x y hx hy
    rw [Ne, Binary64.compare?_eq_none_iff, isNaN_of_number? hx, isNaN_of_number? hy]
    simp
  · exact Option.some_ne_none _

theorem compareMixed_swap (a b : Scalar) :
    compareMixed b a = (compareMixed a b).map Ordering.swap := by
  unfold compareMixed
  cases a.number? with
  | none => cases b.number? <;> exact congrArg some (compareText_swap _ _)
  | some x =>
    cases b.number? with
    | none => exact congrArg some (compareText_swap _ _)
    | some y => exact Binary64.compare?_swap x y

/-- Only null compares with nothing. -/
theorem compare?_eq_none_iff (a b : Scalar) : compare? a b = none ↔ a = .null ∨ b = .null := by
  cases a <;> cases b <;> simp [compare?, compareMixed_ne_none]

/-- The other way round, the outcome is the opposite one. -/
theorem compare?_swap (a b : Scalar) : compare? b a = (compare? a b).map Ordering.swap := by
  cases a <;> cases b <;> simp only [compare?, Option.map_none, Option.map_some]
  case text.text => rw [compareText_swap]
  case bool.bool a b => cases a <;> cases b <;> rfl
  all_goals exact compareMixed_swap _ _

theorem compareMixed_of_number? {a b : Scalar} {x y : Binary64} (ha : a.number? = some x)
    (hb : b.number? = some y) : compareMixed a b = x.compare? y := by
  simp only [compareMixed, ha, hb]

theorem number?_float {x : Binary64} (h : x.isNaN = false) : (float x).number? = some x := by
  rw [number?, h, if_neg Bool.false_ne_true]

/-- Cells that joins take for equal compare as equal. -/
theorem compare?_of_looselyEquals {a b : Scalar} (h : a.looselyEquals b = true) :
    compare? a b = some .eq := by
  -- doubles that are equal are numbers
  have hequals : ∀ {x y : Binary64}, x.equals y = true →
      x.compare? y = some .eq ∧ x.isNaN = false ∧ y.isNaN = false := by
    intro x y hxy
    refine ⟨beq_iff_eq.mp hxy, ?_⟩
    cases x <;> cases y <;> first | exact ⟨rfl, rfl⟩ | cases hxy
  have hfloat : ∀ {i : Int64} {y : Binary64}, (Binary64.ofInt i.toInt).equals y = true →
      compare? (.int i) (.float y) = some .eq := by
    intro i y hy
    obtain ⟨heq, -, hnan⟩ := hequals hy
    exact (compareMixed_of_number? rfl (number?_float hnan)).trans heq
  cases a <;> cases b <;> simp only [looselyEquals, Bool.false_eq_true] at h
  case bool.bool a b =>
    obtain rfl := beq_iff_eq.mp h
    cases a <;> rfl
  case int.int i j =>
    obtain rfl := beq_iff_eq.mp h
    exact Binary64.compare?_ofInt_self i.toInt
  case int.float i y => exact hfloat h
  case float.int x j => rw [compare?_swap, hfloat h, Option.map_some, Ordering.swap_eq]
  case float.float x y =>
    obtain ⟨heq, hx, hy⟩ := hequals h
    exact (compareMixed_of_number? (number?_float hx) (number?_float hy)).trans heq
  case text.text a b =>
    obtain rfl := beq_iff_eq.mp h
    simp [compare?, compareText]

/-! ### Integers -/

theorem ofWhole_toInt (i : Int64) : ofWhole i.toInt = .int i := by
  have hrange : Int64.minValue.toInt ≤ i.toInt ∧ i.toInt ≤ Int64.maxValue.toInt :=
    ⟨i.minValue_le_toInt, i.toInt_le⟩
  rw [ofWhole, int64?, if_pos hrange, Int64.ofInt_toInt]

/-- The integers that are doubles, whatever their last digits. -/
def IsExactInt (i : Int64) : Prop := i.toInt.natAbs ≤ 2 ^ 53

instance (i : Int64) : Decidable (IsExactInt i) :=
  inferInstanceAs (Decidable (i.toInt.natAbs ≤ 2 ^ 53))

/-- Integers up to `2^53` in size compare as such. -/
theorem compare?_int {a b : Int64} (ha : IsExactInt a) (hb : IsExactInt b) :
    compare? (.int a) (.int b) = some (compare a.toInt b.toInt) :=
  Binary64.compare?_ofInt ha hb

/-- What an integer is compared with `n` as: `n` itself, if both have the same double. -/
def comparedAs (i n : Int64) : Int :=
  if Binary64.ofInt i.toInt = Binary64.ofInt n.toInt then n.toInt else i.toInt

theorem compare?_int_eq (i n : Int64) :
    compare? (.int i) (.int n) = some (compare (comparedAs i n) n.toInt) := by
  have hnumber : compare? (.int i) (.int n) =
      Binary64.compare? (.ofInt i.toInt) (.ofInt n.toInt) := rfl
  rw [hnumber, comparedAs]
  split
  · rename_i hsame
    rw [hsame, Binary64.compare?_ofInt_self, compare_eq_iff_eq.mpr rfl]
  · rename_i hother
    exact Binary64.compare?_ofInt_of_ne hother

/-- No other integer than `n` has the double of `n`, as far as `i` is concerned. -/
def IsToldFrom (i n : Int64) : Prop :=
  Binary64.ofInt i.toInt = Binary64.ofInt n.toInt → i = n

instance (i n : Int64) : Decidable (IsToldFrom i n) :=
  inferInstanceAs (Decidable (_ → _))

theorem IsToldFrom.comparedAs_eq {i n : Int64} (h : IsToldFrom i n) :
    comparedAs i n = i.toInt := by
  unfold comparedAs
  split
  · rename_i hsame
    rw [h hsame]
  · rfl

/-- Below `2^53` in size an integer is told from all others. -/
theorem isToldFrom_of_lt {n : Int64} (hn : n.toInt.natAbs < 2 ^ 53) (i : Int64) :
    IsToldFrom i n := by
  intro hsame
  by_contra hne
  exact Binary64.ofInt_ne_ofInt (fun h => hne (Int64.toInt_inj.mp h)) hn hsame

/-- Integers up to `2^53` in size are told from each other. -/
theorem isToldFrom_of_isExactInt {i n : Int64} (hi : IsExactInt i) (hn : IsExactInt n) :
    IsToldFrom i n := by
  intro hsame
  have hcompare := Binary64.compare?_ofInt hi hn
  rw [hsame, Binary64.compare?_ofInt_self, Option.some.injEq, eq_comm, compare_eq_iff_eq] at hcompare
  exact Int64.toInt_inj.mp hcompare

end Scalar
end DocumentSql
