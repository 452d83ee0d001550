import Mathlib.Data.Int.ModEq

/-!
# Distance on a circle

The distance of two integers modulo `n`: the shorter way round a circle of `n` points.
-/

namespace Cyclic

variable {n a b : ℤ}

/-- The distance of `a` and `b` modulo `n`. -/
def dist (n a b : ℤ) : ℤ := min ((a - b) % n) (n - (a - b) % n)

/-- The distance does not count turns. -/
theorem dist_add_mul_self (k : ℤ) : dist n a (b + k * n) = dist n a b := by
  unfold dist
  rw [← sub_sub, Int.sub_mul_emod_self_right]

/-- Within one turn the distance is the shorter of the two ways round. -/
theorem dist_of_le (h₁ : a - b ≤ n) (h₂ : b - a ≤ n) :
    dist n a b = min (max (a - b) (b - a)) (n - max (a - b) (b - a)) := by
  have hpos (c : ℤ) (h₀ : 0 ≤ c) (hle : c ≤ n) : min (c % n) (n - c % n) = min c (n - c) := by
    rcases hle.lt_or_eq with hlt | rfl
    · rw [Int.emod_eq_of_lt h₀ hlt]
    · rw [Int.emod_self, sub_zero, sub_self, min_comm]
  rcases le_total 0 (a - b) with h | h
  · rw [max_eq_left (by omega)]
    exact hpos _ h h₁
  · -- one turn more
    have := hpos (a - b + n) (by omega) (by omega)
    rw [Int.add_emod_right] at this
    rw [dist, this, max_eq_right (by omega), min_comm]
    congr 1 <;> omega

/-- A point is at no distance of itself, and of no other point of the circle. -/
theorem dist_eq_zero (hn : 0 < n) : dist n a b = 0 ↔ a ≡ b [ZMOD n] := by
  have h₁ := Int.emod_nonneg (a - b) hn.ne'
  have h₂ := Int.emod_lt_of_pos (a - b) hn
  rw [Int.modEq_comm, Int.modEq_iff_dvd, Int.dvd_iff_emod_eq_zero, dist]
  omega

/-- No distance is smaller. -/
theorem dist_nonneg (hn : 0 < n) : 0 ≤ dist n a b := by
  have h₁ := Int.emod_nonneg (a - b) hn.ne'
  have h₂ := Int.emod_lt_of_pos (a - b) hn
  exact le_min h₁ (by omega)

end Cyclic
