import Mathlib.Analysis.Real.Sqrt
import Mathlib.Tactic.Positivity
import Mathlib.Tactic.NormNum
import Mathlib.Tactic.Ring
import Mathlib.Tactic.Linarith

/-!
# Rounded arithmetic on integers

What a floating-point operation returns is the exact result, rounded. A rounding
is known here by its order and by the numbers it leaves alone; that is enough to
compare the rounded length of an integer vector with an integer.
-/
namespace Library

/-- A rounding to doubles: it keeps the order, and the integers of 53 bits and their
quotients by powers of two. -/
structure Rounding where
  round : ℝ → ℝ
  monotone : Monotone round
  exact : ∀ (n : ℤ) (k : ℕ), |n| ≤ 2 ^ 53 → k ≤ 1074 → round (n / 2 ^ k) = n / 2 ^ k

namespace Rounding

theorem integer (r : Rounding) {n : ℤ} (h : |n| ≤ 2 ^ 53) : r.round n = n := by
  have same := r.exact n 0 h (by norm_num)
  simpa using same

/-- Squares, sum and root, each rounded. -/
noncomputable def length (p r : Rounding) (m n : ℤ) : ℝ :=
  r.round (√(r.round (p.round (m ^ 2) + p.round (n ^ 2))))

section Length
variable (p r : Rounding) {m n b : ℤ}

theorem square_exact (h : m ^ 2 ≤ 2 ^ 53) : p.round ((m : ℝ) ^ 2) = (m : ℝ) ^ 2 := by
  have same := p.integer (n := m ^ 2) (by rwa [abs_of_nonneg (sq_nonneg m)])
  exact_mod_cast same

theorem square_large (h : b ^ 2 ≤ m ^ 2) (small : b ^ 2 ≤ 2 ^ 53) :
    (b : ℝ) ^ 2 ≤ p.round ((m : ℝ) ^ 2) := by
  rw [← p.square_exact small]
  apply p.monotone
  exact_mod_cast h

theorem square_nonneg : 0 ≤ p.round ((m : ℝ) ^ 2) := by
  have zero := p.integer (n := 0) (by norm_num)
  have order := p.monotone (sq_nonneg (m : ℝ))
  rw [Int.cast_zero] at zero
  rwa [zero] at order

/-- The rounded sum of two squares reaches a square that the exact sum reaches. -/
theorem sum_large (h : b ^ 2 ≤ m ^ 2 + n ^ 2) (small : b ^ 2 ≤ 2 ^ 52) :
    (b : ℝ) ^ 2 ≤ r.round (p.round ((m : ℝ) ^ 2) + p.round ((n : ℝ) ^ 2)) := by
  have reached : (b : ℝ) ^ 2 ≤ p.round ((m : ℝ) ^ 2) + p.round ((n : ℝ) ^ 2) := by
    by_cases first : b ^ 2 ≤ m ^ 2
    · have large := p.square_large first (by omega)
      have rest := p.square_nonneg (m := n)
      linarith
    · by_cases second : b ^ 2 ≤ n ^ 2
      · have large := p.square_large second (by omega)
        have rest := p.square_nonneg (m := m)
        linarith
      · rw [p.square_exact (by omega), p.square_exact (by omega)]
        exact_mod_cast h
  rw [← r.square_exact (m := b) (by omega)]
  exact r.monotone reached

/-- The rounded length of an integer vector is below an integer exactly if the length is. -/
theorem length_lt_iff (positive : 0 < b) (small : b ≤ 2 ^ 20) :
    length p r m n < b ↔ m ^ 2 + n ^ 2 < b ^ 2 := by
  have bound : b ^ 2 ≤ 2 ^ 40 := by nlinarith
  constructor
  · intro short
    by_contra far
    have reached := p.sum_large r (m := m) (n := n) (not_lt.mp far) (by omega)
    have root : (b : ℝ) ≤ √(r.round (p.round ((m : ℝ) ^ 2) + p.round ((n : ℝ) ^ 2))) :=
      Real.le_sqrt_of_sq_le reached
    have rounded := r.monotone root
    rw [r.integer (by rw [abs_of_pos positive]; omega)] at rounded
    exact absurd short (not_lt.mpr rounded)
  · intro near
    have first := sq_nonneg m
    have second := sq_nonneg n
    have sum : r.round (p.round ((m : ℝ) ^ 2) + p.round ((n : ℝ) ^ 2)) = ((m ^ 2 + n ^ 2 : ℤ) : ℝ) := by
      rw [p.square_exact (by omega), p.square_exact (by omega)]
      have same := r.integer (n := m ^ 2 + n ^ 2) (by rw [abs_of_nonneg (by omega)]; omega)
      rw [← same]
      push_cast
      rfl
    -- a double between the root of `b ^ 2 - 1` and `b`
    have quotient : ((b * 2 ^ 21 - 1 : ℤ) : ℝ) / 2 ^ 21 = b - 1 / 2 ^ 21 := by
      push_cast
      ring
    have between : √((m ^ 2 + n ^ 2 : ℤ) : ℝ) ≤ ((b * 2 ^ 21 - 1 : ℤ) : ℝ) / 2 ^ 21 := by
      have least : (1 : ℝ) ≤ b := by exact_mod_cast positive
      have most : (b : ℝ) ≤ 2 ^ 20 := by exact_mod_cast small
      have room : ((m ^ 2 + n ^ 2 : ℤ) : ℝ) ≤ (b : ℝ) ^ 2 - 1 := by
        have apart : m ^ 2 + n ^ 2 ≤ b ^ 2 - 1 := by omega
        exact_mod_cast apart
      rw [quotient]
      exact Real.sqrt_le_iff.mpr ⟨by linarith, by nlinarith⟩
    have rounded := r.monotone between
    rw [r.exact _ 21 (by rw [abs_of_pos (by omega)]; omega) (by norm_num), quotient] at rounded
    rw [length, sum]
    linarith

end Length
end Rounding
end Library
