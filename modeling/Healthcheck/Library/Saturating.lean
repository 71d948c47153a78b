import Mathlib.Order.MinMax

/-! Addition and multiplication that stop at a largest value instead of wrapping. -/

namespace Saturating

variable (top : Nat)

/-- Addition bounded by the largest value. -/
def add (a b : Nat) : Nat :=
  -- The test is made before the addition, as machine code without wider registers must.
  if a > top - b then top else a + b

/-- Multiplication bounded by the largest value. -/
def mul (a b : Nat) : Nat :=
  -- Division asks whether the product still fits.
  if b ≠ 0 ∧ a > top / b then top else a * b

variable {top}

/-- For summands in range the saturating sum is the sum cut at the largest value. -/
theorem add_eq_min {a b : Nat} (small : b ≤ top) : add top a b = min (a + b) top := by
  -- The sum is past the top, or it is exact.
  unfold add
  split <;> omega

/-- A sum stays below the top. -/
theorem add_le {a b : Nat} (small : b ≤ top) : add top a b ≤ top := by
  -- It is a minimum with the top.
  rw [add_eq_min small]
  exact Nat.min_le_right _ _

/-- A product stays below the top. -/
theorem mul_le {a b : Nat} : mul top a b ≤ top := by
  -- A product that passes the test is at most the divided bound times its divisor.
  unfold mul
  split
  · exact Nat.le_refl _
  · rename_i fits
    rcases Nat.eq_zero_or_pos b with zero | positive
    · simp [zero]
    · have bound : a ≤ top / b := by
        by_contra large
        exact fits ⟨by omega, by omega⟩
      exact Nat.le_trans (Nat.mul_le_mul_right b bound) (Nat.div_mul_le_self top b)

/-- A later start never ends earlier. -/
theorem add_mono {a a' b b' : Nat} (left : a ≤ a') (right : b ≤ b') (small : b' ≤ top) :
    add top a b ≤ add top a' b' := by
  -- Both sums are minima with the same top.
  rw [add_eq_min (Nat.le_trans right small), add_eq_min small]
  omega

/-- A saturating sum is not below its first summand. -/
theorem le_add {a b : Nat} (range : a ≤ top) (small : b ≤ top) : a ≤ add top a b := by
  -- A minimum with the top is no smaller than the first summand.
  rw [add_eq_min small]
  omega

/-- Two saturating additions in a row are one, when the sum of the steps is in range or not. -/
theorem add_add {a b c : Nat} (first : b ≤ top) (second : c ≤ top) :
    add top (add top a b) c = min (a + b + c) top := by
  -- Saturating early or late makes no difference.
  rw [add_eq_min second, add_eq_min first]
  omega

/-- Below the largest value a saturating sum is an ordinary one. -/
theorem le_of_add_le {a b c : Nat} (small : b ≤ top) (reached : add top a b ≤ c)
    (below : c < top) : a + b ≤ c := by
  -- Below the top the sum is exact.
  rw [add_eq_min small] at reached
  omega

end Saturating
