/-
# Numbers are read from their JSON texts

The digits of an integer that 64 bits hold are all appended to the number that
they write (`Json.number?_intChars`). A double is written with a point or with an
exponent. What is read of the text may be a neighbour of the double, but it is a
double: with a point, the whole part has at most sixteen digits; with an
exponent, the digits that are read make no more than the decimal that was
written, which is not beyond the next magnitude, and scaling stays in range
below the four greatest magnitudes. The texts of these four are read one by one
(`Json.exists_number?_finite`).

Key definitions: `Json.IsReadable`, `Json.IsPointed`.
Key theorems: `Json.number?_intChars`, `Json.isFloat_pointNumber_of_isWithin`,
`Json.exists_number?_finite`.
-/
import DocumentSql.Json.Number
import DocumentSql.Proofs.Binary64.Scaling
import DocumentSql.Proofs.Binary64.Shortest
import DocumentSql.Proofs.Lists

namespace DocumentSql
namespace Json

/-! ### Integers -/

theorem le_foldl_digits : ∀ (ds : List Char) (n : Nat),
    n ≤ ds.foldl (fun acc c => 10 * acc + Decimal.digitValue c) n
  | [], n => Nat.le_refl n
  | c :: ds, n => by
    have hstep : n ≤ 10 * n + Decimal.digitValue c := by omega
    exact Nat.le_trans hstep (le_foldl_digits ds _)

/-- Digits are all appended if 64 bits hold the number that they write. -/
theorem appendDigits_eq : ∀ {ds : List Char} {n : Nat},
    ds.foldl (fun acc c => 10 * acc + Decimal.digitValue c) n < UInt64.size →
      appendDigits n ds = (ds.foldl (fun acc c => 10 * acc + Decimal.digitValue c) n, [])
  | [], _, _ => rfl
  | c :: ds, n, h => by
    rw [List.foldl_cons] at h ⊢
    have hfits : 10 * n + Decimal.digitValue c < UInt64.size :=
      Nat.lt_of_le_of_lt (le_foldl_digits ds _) h
    rw [appendDigits, if_pos hfits, appendDigits_eq h]

theorem appendDigits_digits {n : Nat} (h : n < UInt64.size) :
    appendDigits 0 (Decimal.digits n) = (n, []) := by
  have hvalue := Decimal.value_digits n
  rw [Decimal.value] at hvalue
  rw [appendDigits_eq (hvalue.symm ▸ h), hvalue]

theorem digitChar_ne_zero : ∀ {n : Nat}, n < 10 → 0 < n → Decimal.digitChar n ≠ '0' := by
  decide

theorem exists_digits_cons {n : Nat} (h : 0 < n) :
    ∃ c cs, Decimal.digits n = c :: cs ∧ c ≠ '0' := by
  induction n using Nat.strongRecOn with
  | _ n ih =>
    rw [Decimal.digits]
    split
    · rename_i hn
      exact ⟨_, [], rfl, digitChar_ne_zero hn h⟩
    · rename_i hn
      obtain ⟨c, cs, hcs, hc⟩ := ih (n / 10) (by omega) (by omega)
      exact ⟨c, _, by rw [hcs, List.cons_append], hc⟩

theorem isWhole_digits (n : Nat) : isWhole (Decimal.digits n) = true := by
  rcases Nat.eq_zero_or_pos n with rfl | h
  · simp [Decimal.digits, isWhole]
  · obtain ⟨c, cs, hcs, hc⟩ := exists_digits_cons h
    simp [hcs, isWhole, hc]

theorem takeWhile_digits (n : Nat) : (Decimal.digits n).takeWhile Decimal.isDigit =
    Decimal.digits n :=
  List.takeWhile_eq_self_iff.mpr fun _ => Decimal.isDigit_of_mem_digits

theorem dropWhile_digits (n : Nat) : (Decimal.digits n).dropWhile Decimal.isDigit = [] :=
  List.dropWhile_eq_nil_iff.mpr fun _ => Decimal.isDigit_of_mem_digits

/-- The integers that are read as integers. -/
def IsReadable (i : Int) : Prop := Int64.minValue.toInt ≤ i ∧ i < UInt64.size

/-- Digits behind a sign write an integer, if 64 bits hold it. -/
theorem wholeNumber_digits {negative : Bool} {n : Nat} (h : n < UInt64.size)
    (hinteger : isInteger negative n = true) :
    wholeNumber negative (Decimal.digits n) = .int (if negative then -(n : Int) else n) := by
  simp only [wholeNumber, appendDigits_digits h, List.isEmpty_nil, hinteger, Bool.and_self, if_true]

/-- An integer is read from its decimal text. -/
theorem number?_intChars {i : Int} (h : IsReadable i) :
    number? (Decimal.intChars i) = some (.int i) := by
  obtain ⟨hlow, hhigh⟩ := h
  have hsize : UInt64.size = 2 ^ 64 := rfl
  have hmin : Int64.minValue.toInt.natAbs = 2 ^ 63 := by decide
  unfold Decimal.intChars
  split
  · rename_i hneg
    have hinteger : isInteger true i.natAbs = true := by
      simp only [isInteger, hmin, if_true, Bool.and_eq_true, decide_eq_true_iff]
      omega
    simp only [number?, takeWhile_digits, dropWhile_digits, isWhole_digits,
      wholeNumber_digits (by omega) hinteger, List.isEmpty_nil, if_true, Bool.not_true,
      Bool.false_eq_true, if_false]
    congr 2
    omega
  · rename_i hneg
    have hinteger : isInteger false i.natAbs = true := by
      simp only [isInteger, Bool.false_eq_true, if_false, decide_eq_true_iff]
      omega
    have hfirst : ∀ rest, Decimal.digits i.natAbs ≠ '-' :: rest := by
      intro rest he
      have hminus : '-' ∈ Decimal.digits i.natAbs := he ▸ List.mem_cons_self
      exact absurd (Decimal.isDigit_of_mem_digits hminus) (by decide)
    unfold number?
    split
    rename_i negative rest heq
    split at heq
    · rename_i rest' hminus
      exact absurd hminus (hfirst rest')
    · obtain ⟨rfl, rfl⟩ := Prod.mk.inj heq
      simp only [takeWhile_digits, dropWhile_digits, isWhole_digits,
        wholeNumber_digits (by omega) hinteger, List.isEmpty_nil, if_true, Bool.not_true,
        Bool.false_eq_true, if_false]
      congr 2
      omega

/-! ### Digits of any number -/

theorem mul_pow_le_foldl_digits : ∀ (ds : List Char) (n : Nat),
    n * Decimal.power ds.length ≤ ds.foldl (fun acc c => 10 * acc + Decimal.digitValue c) n
  | [], n => Nat.le_of_eq (Nat.mul_one n)
  | c :: ds, n =>
    calc n * Decimal.power (ds.length + 1)
        = 10 * n * Decimal.power ds.length := by
          rw [Decimal.power, Decimal.power, Nat.pow_eq, Nat.pow_eq, pow_succ]
          ring
      _ ≤ (10 * n + Decimal.digitValue c) * Decimal.power ds.length :=
          Nat.mul_le_mul_right _ (Nat.le_add_right _ _)
      _ ≤ _ := mul_pow_le_foldl_digits ds _

/-- The digits that are appended come first, and 64 bits hold what they write. -/
theorem exists_appendDigits : ∀ (ds : List Char) {n : Nat}, n < UInt64.size →
    ∃ taken left, ds = taken ++ left ∧
      appendDigits n ds =
        (taken.foldl (fun acc c => 10 * acc + Decimal.digitValue c) n, left) ∧
      (appendDigits n ds).1 < UInt64.size
  | [], n, h => ⟨[], [], rfl, rfl, h⟩
  | c :: ds, n, h => by
    rw [appendDigits]
    split
    · rename_i hfits
      obtain ⟨taken, left, rfl, heq, hlt⟩ := exists_appendDigits ds hfits
      exact ⟨c :: taken, left, rfl, heq, hlt⟩
    · exact ⟨[], c :: ds, rfl, rfl, h⟩

/-! ### Doubles -/

/-- The value is a double. -/
def IsFloat (v : Json) : Prop := ∃ x, v = .float x

instance : ∀ v : Json, Decidable v.IsFloat
  | .float x => .isTrue ⟨x, rfl⟩
  | .null | .bool _ | .int _ | .str _ | .arr _ | .obj _ | .unreadable => .isFalse nofun

theorem isFloat_double {negative : Bool} {n : Nat} {e : Int}
    (h : n * Decimal.power e.toNat * Magnitude.one ≤ Magnitude.scalingBound) :
    (double negative n e).IsFloat := by
  obtain ⟨m, hm⟩ := Magnitude.exists_scaled? h
  exact ⟨_, by rw [double, hm]⟩

/-- A number with a short whole part is a double. -/
theorem isFloat_pointNumber_of_short {negative : Bool} {whole fraction : List Char}
    (hwhole : whole.length ≤ 17) : (pointNumber negative whole fraction 0).IsFloat := by
  obtain ⟨taken, left, rfl, heq, hlt⟩ := exists_appendDigits whole (n := 0) (by decide)
  obtain ⟨taken', left', rfl, heq', hlt'⟩ := exists_appendDigits fraction hlt
  have hlarge : UInt64.size * Decimal.power 17 * Magnitude.one ≤ Magnitude.scalingBound := by
    decide +kernel
  unfold pointNumber
  refine isFloat_double (Nat.le_trans ?_ hlarge)
  refine Nat.mul_le_mul_right _ (Nat.mul_le_mul hlt'.le (Magnitude.power_mono ?_))
  rw [List.length_append] at hwhole
  simp only [heq]
  omega

/-- A number that is written with all the digits of a decimal is a double, if the decimal is not
beyond a magnitude next to which scaling stays in range. -/
theorem isFloat_pointNumber_of_isWithin {negative : Bool} {c : Char} {tail : List Char}
    {d : ScaledDecimal} (hdigits : Decimal.value (c :: tail) = d.significand) {code : Nat}
    (hd : d.IsWithin code) (hcode : code + 1 ≤ Magnitude.infinity.val - 4) :
    (pointNumber negative [c] tail (d.exponent + tail.length)).IsFloat := by
  have hlt : 10 * 0 + Decimal.digitValue c < UInt64.size := by
    have hchar : c.toNat < 2 ^ 32 := c.val.toNat_lt
    have hsize : UInt64.size = 2 ^ 64 := rfl
    unfold Decimal.digitValue
    omega
  have hfirst : appendDigits 0 [c] = (10 * 0 + Decimal.digitValue c, []) := by
    rw [appendDigits, if_pos hlt, appendDigits]
  obtain ⟨taken, left, rfl, heq, hread⟩ := exists_appendDigits tail hlt
  -- the digits that are left over count as zeros
  have hle : taken.foldl (fun acc c => 10 * acc + Decimal.digitValue c)
      (10 * 0 + Decimal.digitValue c) * Decimal.power left.length ≤ d.significand := by
    rw [← hdigits, Decimal.value, List.foldl_cons, List.foldl_append]
    exact mul_pow_le_foldl_digits left _
  rw [heq] at hread
  have hexponent : d.exponent + (taken ++ left).length + ([] : List Char).length -
      ((taken ++ left).length - left.length : Nat) = d.exponent + left.length := by
    rw [List.length_append, Nat.add_sub_cancel, List.length_nil]
    omega
  simp only [pointNumber, hfirst, heq]
  exact isFloat_double (hexponent ▸ hd.mul_power_le hcode hle hread)

/-! ### The texts of doubles -/

/-- Digits in front of a point and behind it, as JSON wants them. -/
structure IsPointed (whole fraction : List Char) : Prop where
  isWhole : isWhole whole = true
  whole_digits : ∀ c ∈ whole, Decimal.isDigit c = true
  fraction_ne_nil : fraction ≠ []
  fraction_digits : ∀ c ∈ fraction, Decimal.isDigit c = true

/-- Whole digits with a sign are read up to what follows. -/
theorem number?_append (negative : Bool) {whole rest : List Char} (hwhole : isWhole whole = true)
    (hdigits : ∀ c ∈ whole, Decimal.isDigit c = true) (hne : rest ≠ [])
    (hrest : ∀ c ∈ rest.head?, Decimal.isDigit c = false) :
    number? (Binary64.signChars negative ++ (whole ++ rest)) =
      if rest.head? == some '.' && (Binary64.splitFraction rest).1.isEmpty then none
      else (Binary64.exponent? (Binary64.splitFraction rest).2).map
        (pointNumber negative whole (Binary64.splitFraction rest).1) := by
  obtain ⟨htake, hdrop⟩ := takeWhile_append_of_ends hdigits hrest
  have hnotEmpty : rest.isEmpty = false := by simpa using hne
  cases negative with
  | true =>
    have hsign : Binary64.signChars true ++ (whole ++ rest) = '-' :: (whole ++ rest) := rfl
    simp only [hsign, number?, htake, hdrop, hwhole, hnotEmpty, Bool.not_true,
      Bool.false_eq_true, if_false]
  | false =>
    have hfirst : ∀ cs, whole ++ rest ≠ '-' :: cs := by
      intro cs he
      cases whole with
      | nil => cases hwhole
      | cons c whole =>
        obtain rfl := (List.cons.inj he).1
        exact absurd (hdigits _ List.mem_cons_self) (by decide)
    have hsign : Binary64.signChars false ++ (whole ++ rest) = whole ++ rest := rfl
    rw [hsign]
    unfold number?
    split
    rename_i negative cs heq
    split at heq
    · rename_i cs' hminus
      exact absurd hminus (hfirst cs')
    · obtain ⟨rfl, rfl⟩ := Prod.mk.inj heq
      simp only [htake, hdrop, hwhole, hnotEmpty, Bool.not_true, Bool.false_eq_true, if_false]

/-- Digits on both sides of a point are read, and an exponent behind them. -/
theorem number?_point (negative : Bool) {whole fraction rest : List Char}
    (h : IsPointed whole fraction) (hrest : ∀ c ∈ rest.head?, Decimal.isDigit c = false) :
    number? (Binary64.signChars negative ++ (whole ++ '.' :: (fraction ++ rest))) =
      (Binary64.exponent? rest).map (pointNumber negative whole fraction) := by
  obtain ⟨htake, hdrop⟩ := takeWhile_append_of_ends h.fraction_digits hrest
  have hsplit : Binary64.splitFraction ('.' :: (fraction ++ rest)) = (fraction, rest) := by
    rw [Binary64.splitFraction, htake, hdrop]
  have hnotEmpty : fraction.isEmpty = false := by simpa using h.fraction_ne_nil
  rw [number?_append negative h.isWhole h.whole_digits (List.cons_ne_nil _ _)
    (by rintro c hc; obtain rfl := Option.some.inj hc; decide), hsplit]
  simp only [hnotEmpty, Bool.and_false, Bool.false_eq_true, if_false]

/-- Digits are read with an exponent behind them. -/
theorem number?_exponent (negative : Bool) {whole rest : List Char} (hwhole : isWhole whole = true)
    (hdigits : ∀ c ∈ whole, Decimal.isDigit c = true) :
    number? (Binary64.signChars negative ++ (whole ++ 'e' :: rest)) =
      (Binary64.exponent? ('e' :: rest)).map (pointNumber negative whole []) :=
  number?_append negative hwhole hdigits (List.cons_ne_nil _ _)
    (by rintro c hc; obtain rfl := Option.some.inj hc; decide)

theorem exponent?_scientific (e : Int) :
    Binary64.exponent? ('e' :: (if e < 0 then '-' else '+') :: Decimal.digits e.natAbs) =
      some e := by
  have hread := Decimal.natural?_digits e.natAbs
  split
  · have hsplit : Binary64.splitSign ('-' :: Decimal.digits e.natAbs) =
        (true, Decimal.digits e.natAbs) := rfl
    have hneg : -(e.natAbs : Int) = e := by omega
    simp only [Binary64.exponent?, decide_true, Bool.true_or, if_true, hsplit, hread]
    exact congrArg some hneg
  · have hsplit : Binary64.splitSign ('+' :: Decimal.digits e.natAbs) =
        (false, Decimal.digits e.natAbs) := rfl
    have hnonneg : (e.natAbs : Int) = e := by omega
    simp only [Binary64.exponent?, decide_true, Bool.true_or, if_true, hsplit, hread,
      Bool.false_eq_true, if_false]
    exact congrArg some hnonneg

/-- A decimal below `10^16` is written with a short whole part. -/
theorem exists_positional {d : ScaledDecimal} (hpos : 0 < d.significand)
    (hlead : Binary64.leadingExponent d < 16) :
    ∃ whole fraction, Binary64.positional d ['.', '0'] = whole ++ '.' :: fraction ∧
      IsPointed whole fraction ∧ whole.length ≤ 17 := by
  obtain ⟨c, cs, hcs, hc⟩ := exists_digits_cons hpos
  have hdigits : ∀ x ∈ Decimal.digits d.significand, Decimal.isDigit x = true :=
    fun _ => Decimal.isDigit_of_mem_digits
  have hzeros : ∀ n, ∀ x ∈ List.replicate n '0', Decimal.isDigit x = true := by
    intro n x hx
    rw [List.eq_of_mem_replicate hx]
    decide
  have hall : ∀ {xs ys : List Char}, (∀ x ∈ xs, Decimal.isDigit x = true) →
      (∀ x ∈ ys, Decimal.isDigit x = true) → ∀ x ∈ xs ++ ys, Decimal.isDigit x = true :=
    fun hxs hys => List.forall_mem_append.mpr ⟨hxs, hys⟩
  unfold Binary64.leadingExponent at hlead
  unfold Binary64.positional
  simp only
  split
  · rename_i hnonneg
    refine ⟨Decimal.digits d.significand ++ List.replicate d.exponent.toNat '0', ['0'], rfl,
      ⟨?_, hall hdigits (hzeros _), List.cons_ne_nil _ _, hzeros 1⟩, ?_⟩
    · simp [hcs, isWhole, hc]
    · rw [List.length_append, List.length_replicate]
      omega
  · rename_i hneg
    split
    · rename_i hinside
      refine ⟨_, _, rfl, ⟨?_, ?_, ?_, ?_⟩, ?_⟩
      · obtain ⟨k, hk⟩ : ∃ k, (Decimal.digits d.significand).length - (-d.exponent).toNat =
            k + 1 := Nat.exists_eq_add_one.mpr (by omega)
        rw [hk, hcs, List.take_succ_cons]
        simp [isWhole, hc]
      · exact fun x hx => hdigits x (List.mem_of_mem_take hx)
      · rw [Ne, List.drop_eq_nil_iff]
        omega
      · exact fun x hx => hdigits x (List.mem_of_mem_drop hx)
      · rw [List.length_take]
        omega
    · exact ⟨['0'], _, rfl, ⟨rfl, hzeros 1, by simp [hcs], hall (hzeros _) hdigits⟩, by decide⟩

/-- A decimal that is not zero is read from its digits with an exponent. -/
theorem number?_scientific (negative : Bool) {d : ScaledDecimal} (hpos : 0 < d.significand) :
    ∃ c tail, Decimal.value (c :: tail) = d.significand ∧
      number? (Binary64.signChars negative ++ Binary64.scientific d) =
        some (pointNumber negative [c] tail (d.exponent + tail.length)) := by
  obtain ⟨c, tail, hcs, -⟩ := exists_digits_cons hpos
  have hdigits : ∀ x ∈ c :: tail, Decimal.isDigit x = true :=
    fun _ hx => Decimal.isDigit_of_mem_digits (hcs ▸ hx)
  obtain ⟨hfirst, htail⟩ := List.forall_mem_cons.mp hdigits
  have hwhole : isWhole [c] = true := by simp [isWhole]
  have hlead : Binary64.leadingExponent d = d.exponent + tail.length := by
    rw [Binary64.leadingExponent, hcs, List.length_cons]
    omega
  refine ⟨c, tail, by rw [← hcs, Decimal.value_digits], ?_⟩
  unfold Binary64.scientific
  simp only [hcs, hlead, List.take_succ_cons, List.take_zero, List.drop_succ_cons, List.drop_zero]
  cases tail with
  | nil =>
    refine (number?_exponent negative hwhole (List.forall_mem_singleton.mpr hfirst)).trans ?_
    rw [exponent?_scientific]
    rfl
  | cons t tail =>
    have hpointed : IsPointed [c] (t :: tail) :=
      ⟨hwhole, List.forall_mem_singleton.mpr hfirst, List.cons_ne_nil _ _, htail⟩
    have hends : ∀ x ∈ ('e' :: (if d.exponent + (t :: tail).length < 0 then '-' else '+') ::
        Decimal.digits (d.exponent + (t :: tail).length).natAbs).head?,
          Decimal.isDigit x = false := by
      rintro x hx
      obtain rfl := Option.some.inj hx
      decide
    refine (congrArg number? ?_).trans ((number?_point negative hpointed hends).trans ?_)
    · simp
    · rw [exponent?_scientific]
      rfl

/-- Next to infinity the doubles are read from their texts one by one. -/
theorem number?_greatest : ∀ (negative : Bool) (k : Fin 4),
    (number? (Binary64.jsonChars (.signed negative
      ⟨Magnitude.infinity.val - (k.val + 1), by omega⟩))).any (decide ·.IsFloat) = true := by
  decide +kernel

/-- Below the four greatest doubles the text of a double is read as a double. -/
theorem exists_number?_of_lt (negative : Bool) {m : Magnitude}
    (h : m.val < Magnitude.infinity.val - 4) :
    ∃ x, number? (Binary64.jsonChars (.signed negative m)) = some (.float x) := by
  have hfinite : m ≠ .infinity := by
    rintro rfl
    omega
  have hchars : Binary64.jsonChars (.signed negative m) = Binary64.signChars negative ++
      if m = .zero then ['0', '.', '0']
      else if -5 ≤ Binary64.leadingExponent (shortest .toEven m) &&
          Binary64.leadingExponent (shortest .toEven m) < 16 then
        Binary64.positional (shortest .toEven m) ['.', '0']
      else Binary64.scientific (shortest .toEven m) := by
    rw [Binary64.jsonChars, if_neg hfinite]
  rw [hchars]
  have hpoint : ∀ {whole fraction : List Char}, IsPointed whole fraction → whole.length ≤ 17 →
      ∃ x, number? (Binary64.signChars negative ++ (whole ++ '.' :: fraction)) =
        some (.float x) := by
    intro whole fraction hpointed hshort
    obtain ⟨x, hx⟩ : (pointNumber negative whole fraction 0).IsFloat :=
      isFloat_pointNumber_of_short hshort
    have hends : ∀ c ∈ ([] : List Char).head?, Decimal.isDigit c = false := nofun
    have hread := number?_point negative hpointed hends
    rw [List.append_nil] at hread
    exact ⟨x, hread.trans (congrArg some hx)⟩
  split
  · have hdigit : ∀ c ∈ ['0'], Decimal.isDigit c = true := List.forall_mem_singleton.mpr rfl
    exact hpoint ⟨rfl, hdigit, List.cons_ne_nil _ _, hdigit⟩ (by decide)
  rename_i hzero
  have hwithin := isWithin_shortest .toEven
    (Nat.pos_of_ne_zero fun he => hzero (Fin.ext he : m = .zero))
  split
  · rename_i hlead
    rw [Bool.and_eq_true, decide_eq_true_iff, decide_eq_true_iff] at hlead
    obtain ⟨whole, fraction, htext, hpointed, hshort⟩ := exists_positional hwithin.pos hlead.2
    exact htext ▸ hpoint hpointed hshort
  · obtain ⟨c, tail, hdigits, hread⟩ := number?_scientific negative hwithin.pos
    obtain ⟨x, hx⟩ : (pointNumber negative [c] tail _).IsFloat :=
      isFloat_pointNumber_of_isWithin hdigits hwithin (Nat.succ_le_of_lt h)
    exact ⟨x, hread.trans (congrArg some hx)⟩

/-- **Doubles are read.** The text of a finite double is read as a double. -/
theorem exists_number?_finite (negative : Bool) {m : Magnitude} (h : m ≠ .infinity) :
    ∃ x, number? (Binary64.jsonChars (.signed negative m)) = some (.float x) := by
  rcases lt_or_ge m.val (Magnitude.infinity.val - 4) with hsmall | hgreat
  · exact exists_number?_of_lt negative hsmall
  · have hval : m.val < Magnitude.infinity.val :=
      lt_of_le_of_ne (Nat.le_of_lt_succ m.isLt) fun he => h (Fin.ext he)
    let k : Fin 4 := ⟨Magnitude.infinity.val - 1 - m.val, by omega⟩
    have hm : m = ⟨Magnitude.infinity.val - (k.val + 1), by omega⟩ := by
      apply Fin.ext
      simp only [k]
      omega
    have hread := number?_greatest negative k
    rw [← hm, Option.any_eq_true] at hread
    obtain ⟨v, hv, hfloat⟩ := hread
    obtain ⟨x, rfl⟩ := of_decide_eq_true hfloat
    exact ⟨x, hv⟩

end Json
end DocumentSql
