import Mathlib.Data.Rat.Floor
import Mathlib.Tactic.Common

/-!
# Floats as they are compared

A double is a rational, an infinity or NaN.  Python compares doubles exactly, so nothing of
their format is needed but the rounding of an integer.

- `le_nan`, `nan_le`, `lt_nan`, `nan_lt`: NaN is in no order;
- `ofInt?_of_lt`: the integers below `2 ^ 53` are doubles.
-/

namespace RobotDataHarness.Library

/-- The value of a double. -/
inductive PyFloat where
  | finite (q : ℚ)
  | infinite (negative : Bool)
  | nan
  deriving DecidableEq

namespace PyFloat

/-- `x <= y`. -/
def le : PyFloat → PyFloat → Bool
  | .finite p, .finite q => p ≤ q
  | .infinite true, .finite _ | .infinite true, .infinite _ => true
  | .finite _, .infinite false | .infinite false, .infinite false => true
  | _, _ => false

/-- `x < y`. -/
def lt : PyFloat → PyFloat → Bool
  | .finite p, .finite q => p < q
  | .infinite true, .finite _ | .infinite true, .infinite false => true
  | .finite _, .infinite false => true
  | _, _ => false

variable (x : PyFloat)

@[simp] theorem nan_le : le .nan x = false := by cases x <;> rfl

@[simp] theorem le_nan : le x .nan = false := by
  rcases x with _ | ⟨_ | _⟩ | _ <;> rfl

@[simp] theorem nan_lt : lt .nan x = false := by cases x <;> rfl

@[simp] theorem lt_nan : lt x .nan = false := by
  rcases x with _ | ⟨_ | _⟩ | _ <;> rfl

/-- The double next to a natural number: 53 bits are kept, a tie goes to the even neighbour. -/
def roundToDouble (n : ℕ) : ℕ :=
  let e := n.log2 + 1 - 53
  let q := n / 2 ^ e
  let r := n % 2 ^ e
  if 2 ^ e < 2 * r ∨ 2 * r = 2 ^ e ∧ q % 2 = 1 then (q + 1) * 2 ^ e else q * 2 ^ e

/-- An integer of at most 53 bits is a double. -/
theorem roundToDouble_of_lt {n : ℕ} (h : n < 2 ^ 53) : roundToDouble n = n := by
  have hbits : n.log2 + 1 - 53 = 0 := by
    by_cases hn : n = 0
    · simp [hn]
    · have := (Nat.log2_lt hn).mpr h
      omega
  unfold roundToDouble
  simp [hbits, Nat.mod_one]

/-- `float(n)`, unless it raises `OverflowError`. -/
def ofInt? (n : ℤ) : Option PyFloat :=
  let m := roundToDouble n.natAbs
  if m < 2 ^ 1024 then some (.finite (n.sign * m)) else none

/-- An integer of at most 53 bits keeps its value. -/
theorem ofInt?_of_lt {n : ℤ} (h : n.natAbs < 2 ^ 53) : ofInt? n = some (.finite n) := by
  have hpow : ∀ k, 53 ≤ k → n.natAbs < 2 ^ k := fun k hk =>
    h.trans_le (Nat.pow_le_pow_right Nat.two_pos hk)
  have hvalue : (n.sign * n.natAbs : ℚ) = n := by
    calc (n.sign * n.natAbs : ℚ) = ((n.sign * n.natAbs : ℤ) : ℚ) := by
          simp only [Int.cast_mul, Int.cast_natCast]
      _ = n := by rw [Int.sign_mul_natAbs]
  unfold ofInt?
  rw [roundToDouble_of_lt h, if_pos (hpow _ (by decide)), hvalue]

end PyFloat

end RobotDataHarness.Library
