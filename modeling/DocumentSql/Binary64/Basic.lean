/-
# Double-precision numbers

A double is a sign and a magnitude, or not a number. The magnitudes are
numbered in ascending order, from 0 for zero to `2^63 - 2^52` for infinity, by
the code that the format gives them: an exponent field of eleven bits in front
of a fraction of fifty-two. A finite magnitude is a whole number of the
smallest positive one, `2^-1074`; `Magnitude.units` is that number. So all
comparing and all arithmetic is done on integers, without error.

Key definitions: `Binary64`, `Binary64.Magnitude.units`, `Binary64.compare?`.
-/

namespace DocumentSql

/-- The sizes of doubles in ascending order: zero, the finite ones, infinity. -/
abbrev Magnitude := Fin ((1 <<< 63) - (1 <<< 52) + 1)

namespace Magnitude

/-- The magnitude of zero. -/
def zero : Magnitude := ⟨0, by decide⟩

/-- The magnitude of the infinities. -/
def infinity : Magnitude := ⟨(1 <<< 63) - (1 <<< 52), by decide⟩

/-- How many times `2^-1074` fits into the number with code `code`. The codes below `2^53` count
up by one; each following run of `2^52` codes counts by twice the step of the run before. -/
def unitsOfCode (code : Nat) : Nat :=
  if code < 1 <<< 52 then code
  else ((1 <<< 52) + code % (1 <<< 52)) <<< (code / (1 <<< 52) - 1)

/-- The size of a finite magnitude, as a multiple of `2^-1074`. -/
def units (m : Magnitude) : Nat := unitsOfCode m.val

end Magnitude

/-- A double: not a number, or a magnitude with a sign. Zero and infinity have two signs too. -/
inductive Binary64 where
  | nan
  | signed (negative : Bool) (magnitude : Magnitude)
deriving DecidableEq

namespace Binary64

instance : Inhabited Binary64 := ⟨.signed false .zero⟩

/-- Positive zero. -/
def zero : Binary64 := .signed false .zero

/-- Whether `x` is not a number. -/
def isNaN : Binary64 → Bool
  | .nan => true
  | .signed _ _ => false

/-- The place of a number in the order of the numbers; both zeros stand at 0. -/
def rank (negative : Bool) (m : Magnitude) : Int :=
  if negative then -(m.val : Int) else m.val

/-- The order of two numbers; nothing compares with what is not a number. -/
def compare? : Binary64 → Binary64 → Option Ordering
  | .signed s a, .signed t b => some (compare (rank s a) (rank t b))
  | _, _ => none

/-- Numeric equality: the zeros are equal, and what is not a number equals nothing. -/
def equals (x y : Binary64) : Bool := compare? x y == some .eq

/-- Strictly below, as numbers. -/
def below (x y : Binary64) : Bool := compare? x y == some .lt

/-- Strictly above, as numbers. -/
def above (x y : Binary64) : Bool := compare? x y == some .gt

/-- The 64 bits of the interchange format; all that is not a number has one pattern. -/
def toBits : Binary64 → Nat
  | .nan => (1 <<< 63) - (1 <<< 51)
  | .signed s m => (if s then 1 <<< 63 else 0) + m.val

/-- The double with the given bits, of which the lowest 64 count. -/
def ofBits (bits : Nat) : Binary64 :=
  let code := bits % (1 <<< 63)
  if h : code < (1 <<< 63) - (1 <<< 52) + 1 then .signed (bits / (1 <<< 63) % 2 == 1) ⟨code, h⟩
  else .nan

theorem compare?_eq_none_iff (x y : Binary64) :
    compare? x y = none ↔ x.isNaN = true ∨ y.isNaN = true := by
  cases x <;> cases y <;> simp [compare?, isNaN]

theorem compare?_swap (x y : Binary64) : compare? y x = (compare? x y).map Ordering.swap := by
  cases x <;> cases y <;> simp [compare?, Int.compare_swap]

end Binary64
end DocumentSql
