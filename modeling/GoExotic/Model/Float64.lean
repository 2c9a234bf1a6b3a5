/-
Module: GoExotic.Model.Float64
Purpose: Go's `float64`. A value is NaN, an infinity or a rational number; comparisons and the tests of
  package math are fixed, while the rounding of arithmetic is left to a `FloatOps`, of which the exact
  arithmetic on rationals is one, and exact arithmetic that overflows beyond the largest number another.
Trusted boundary: IEEE 754 arithmetic, as far as the laws of `FloatOps` state it
Main exports: Float64, Float64.PosFinite, Float64.toInt, FloatOps, FloatOps.exact, FloatOps.overflowing
-/
import Mathlib.Algebra.Order.Field.Rat
import Mathlib.Data.Rat.Floor
import Mathlib.Tactic.Linarith

namespace GoExotic

/-- The values of a `float64`. -/
inductive Float64 where
  | nan
  | inf (negative : Bool)
  | finite (value : ℚ)
deriving DecidableEq, Repr

namespace Float64

/-- `math.IsNaN`. -/
def isNaN : Float64 → Bool
  | .nan => true
  | _ => false

/-- `math.IsInf(x, 0)`. -/
def isInf : Float64 → Bool
  | .inf _ => true
  | _ => false

/-- `x <= y`; false where either side is NaN. -/
def le : Float64 → Float64 → Bool
  | .nan, _ => false
  | _, .nan => false
  | .inf true, _ => true
  | _, .inf false => true
  | .finite x, .finite y => decide (x ≤ y)
  | _, _ => false

/-- `x > y`; false where either side is NaN. -/
def gt : Float64 → Float64 → Bool
  | .nan, _ => false
  | _, .nan => false
  | x, y => !x.le y

/-- `0.0`. -/
def zero : Float64 := .finite 0

/-- `int(x)`: the value truncated toward zero. Where the truncated value is no `int` Go leaves the
result to the implementation; the model takes the one of amd64. -/
def toInt : Float64 → Int
  | .finite x =>
      let truncated := Int.tdiv x.num x.den
      if -9223372036854775808 ≤ truncated ∧ truncated ≤ 9223372036854775807 then truncated
      else -9223372036854775808
  | _ => -9223372036854775808

/-- `!(x <= 0 || math.IsNaN(x) || math.IsInf(x, 0))`: a usable amount of memory. -/
def PosFinite (x : Float64) : Prop :=
  ¬ (x.le zero = true ∨ x.isNaN = true ∨ x.isInf = true)

instance (x : Float64) : Decidable x.PosFinite :=
  inferInstanceAs (Decidable (¬ (_ ∨ _ ∨ _)))

/-- The usable amounts are the positive rationals. -/
theorem posFinite_iff {x : Float64} : x.PosFinite ↔ ∃ q : ℚ, 0 < q ∧ x = .finite q := by
  cases x with
  | nan => simp [PosFinite, isNaN]
  | inf negative => simp [PosFinite, isInf]
  | finite q => simp [PosFinite, isNaN, isInf, le, zero]

@[simp] theorem posFinite_finite {q : ℚ} : (Float64.finite q).PosFinite ↔ 0 < q := by
  simp [posFinite_iff]

/-- A non-negative value within the int range truncates to its floor, an `int` again. -/
theorem toInt_finite {q : ℚ} (nonneg : 0 ≤ q) (bound : q ≤ 9223372036854775807) :
    (Float64.finite q).toInt = ⌊q⌋ := by
  have truncated : Int.tdiv q.num q.den = ⌊q⌋ := by
    rw [Int.tdiv_eq_ediv_of_nonneg (Rat.num_nonneg.mpr nonneg), ← Rat.floor_def]
    rfl
  have floorNonneg : 0 ≤ ⌊q⌋ := Int.floor_nonneg.mpr nonneg
  have floorBound : ⌊q⌋ ≤ 9223372036854775807 := by
    have : (⌊q⌋ : ℚ) ≤ 9223372036854775807 := (Int.floor_le q).trans bound
    exact_mod_cast this
  simp only [toInt, truncated]
  rw [if_pos ⟨by omega, floorBound⟩]

end Float64

/-- The arithmetic of `float64`, with the laws the planner's guards rest on. -/
structure FloatOps where
  /-- `float64(n)`. -/
  ofInt : Int → Float64
  add : Float64 → Float64 → Float64
  mul : Float64 → Float64 → Float64
  div : Float64 → Float64 → Float64
  /-- The sum of a non-negative and a positive number is positive, or overflows to +Inf. -/
  add_pos : ∀ a b : ℚ, 0 ≤ a → 0 < b →
    (add (.finite a) (.finite b)).PosFinite ∨ add (.finite a) (.finite b) = .inf false
  /-- `float64(math.MaxInt)` is a number and not below `math.MaxInt`. -/
  ofInt_maxInt : ∃ q : ℚ, ofInt 9223372036854775807 = .finite q ∧ 9223372036854775807 ≤ q

namespace FloatOps

/-- IEEE addition without rounding. -/
def exactAdd : Float64 → Float64 → Float64
  | .nan, _ => .nan
  | _, .nan => .nan
  | .inf s, .inf t => if s = t then .inf s else .nan
  | .inf s, .finite _ => .inf s
  | .finite _, .inf t => .inf t
  | .finite x, .finite y => .finite (x + y)

/-- The sign of an operand, as multiplication and division combine it. -/
def isNegative : Float64 → Bool
  | .nan => false
  | .inf s => s
  | .finite x => decide (x < 0)

/-- IEEE multiplication without rounding. -/
def exactMul : Float64 → Float64 → Float64
  | .nan, _ => .nan
  | _, .nan => .nan
  | .finite x, .finite y => .finite (x * y)
  | x, y =>
      if x = .zero ∨ y = .zero then .nan else .inf (isNegative x != isNegative y)

/-- IEEE division without rounding. -/
def exactDiv : Float64 → Float64 → Float64
  | .nan, _ => .nan
  | _, .nan => .nan
  | .inf _, .inf _ => .nan
  | .inf s, y => .inf (s != isNegative y)
  | .finite _, .inf _ => .zero
  | .finite x, .finite y =>
      if y = 0 then (if x = 0 then .nan else .inf (isNegative (.finite x))) else .finite (x / y)

/-- Exact rational arithmetic. -/
def exact : FloatOps where
  ofInt n := .finite n
  add := exactAdd
  mul := exactMul
  div := exactDiv
  add_pos a b aNonneg bPos := Or.inl (by simp only [exactAdd, Float64.posFinite_finite]; linarith)
  ofInt_maxInt := ⟨9223372036854775807, by norm_num, le_refl _⟩

/-- The largest finite `float64`. -/
def maxFinite : ℚ := (2 ^ 53 - 1) * 2 ^ 971

/-- Numbers beyond the largest finite one become infinities. -/
def overflow : Float64 → Float64
  | .finite q => if maxFinite < q then .inf false else if q < -maxFinite then .inf true else .finite q
  | x => x

theorem overflow_finite {q : ℚ} (nonneg : 0 ≤ q) :
    overflow (.finite q) = if maxFinite < q then .inf false else .finite q := by
  have positive : 0 ≤ maxFinite := by norm_num [maxFinite]
  rw [overflow, if_neg (by linarith : ¬ q < -maxFinite)]

/-- Exact rational arithmetic, with overflow. -/
def overflowing : FloatOps where
  ofInt n := .finite n
  add x y := overflow (exactAdd x y)
  mul x y := overflow (exactMul x y)
  div x y := overflow (exactDiv x y)
  add_pos a b aNonneg bPos := by
    have sum : exactAdd (.finite a) (.finite b) = .finite (a + b) := rfl
    rw [sum, overflow_finite (by linarith)]
    split_ifs
    · exact Or.inr rfl
    · exact Or.inl (Float64.posFinite_finite.mpr (by linarith))
  ofInt_maxInt := ⟨9223372036854775807, by norm_num, le_refl _⟩

end FloatOps

end GoExotic
