import Mathlib.Data.Int.Log
import Mathlib.Data.Rat.Floor
import Mathlib.Tactic.Linarith
import Mathlib.Tactic.Ring

/-!
# Binary floating point

Rounding to the nearest number of a format, ties to even, without regard to the
largest number: nothing in the format is nearer to a number than what it is
rounded to.
-/
namespace Library

/-- The nearest integer, the even one of two. -/
def nearest (q : ℚ) : ℤ :=
  if Int.fract q < 1 / 2 ∨ Int.fract q = 1 / 2 ∧ Even ⌊q⌋ then ⌊q⌋ else ⌊q⌋ + 1

theorem le_nearest {m : ℤ} {q : ℚ} (h : m ≤ q) : m ≤ nearest q := by
  have floor := Int.le_floor.mpr h
  unfold nearest
  split <;> omega

theorem nearest_le {m : ℤ} {q : ℚ} (h : q ≤ m) : nearest q ≤ m := by
  have floor : ⌊q⌋ ≤ m := by exact_mod_cast (Int.floor_le q).trans h
  unfold nearest
  split
  · exact floor
  · next up =>
      rcases floor.lt_or_eq with below | same
      · omega
      · -- an integer is not rounded up
        have part := Int.self_sub_floor q
        have positive := Int.fract_nonneg q
        rw [same] at part
        exact absurd (.inl (by linarith)) up

theorem nearest_nearest (q : ℚ) (m : ℤ) : |nearest q - q| ≤ |m - q| := by
  have part := Int.self_sub_floor q
  have low := Int.fract_nonneg q
  have high := Int.fract_lt_one q
  -- the two integers next to `q`, the nearer of which is chosen
  have chosen : |(nearest q : ℚ) - q| ≤ Int.fract q ∧ |(nearest q : ℚ) - q| ≤ 1 - Int.fract q := by
    unfold nearest
    split
    · next down =>
        have half : Int.fract q ≤ 1 / 2 := by
          rcases down with less | ⟨tie, _⟩
          · exact less.le
          · exact tie.le
        rw [abs_sub_comm, part, abs_of_nonneg low]
        exact ⟨le_rfl, by linarith⟩
    · next up =>
        have half : 1 / 2 ≤ Int.fract q := not_lt.mp fun less => up (.inl less)
        have rest : ((⌊q⌋ + 1 : ℤ) : ℚ) - q = 1 - Int.fract q := by
          push_cast
          linarith
        rw [rest, abs_of_nonneg (by linarith)]
        exact ⟨by linarith, le_rfl⟩
  rcases le_or_gt m ⌊q⌋ with below | above
  · have under : (m : ℚ) ≤ ⌊q⌋ := by exact_mod_cast below
    refine chosen.1.trans ?_
    rw [abs_sub_comm, abs_of_nonneg (by linarith)]
    linarith
  · have beyond : (⌊q⌋ : ℚ) + 1 ≤ m := by exact_mod_cast above
    refine chosen.2.trans ?_
    rw [abs_of_nonneg (by linarith)]
    linarith

/-- A leading bit, `fraction` bits behind it, and the exponent of the lowest place. -/
structure Floating where
  fraction : ℕ
  least : ℤ

namespace Floating
variable (f : Floating)

/-- The exponent of the last place that a number near `q` has. -/
def lastPlace (q : ℚ) : ℤ := max (Int.log 2 |q| - f.fraction) f.least

/-- The nearest number, in units of its last place. -/
def units (q : ℚ) : ℤ := nearest (q / 2 ^ f.lastPlace q)

def round (q : ℚ) : ℚ := f.units q * 2 ^ f.lastPlace q

/-- The numbers of the format, the bound on the exponent apart. -/
def Holds (q : ℚ) : Prop :=
  ∃ n k : ℤ, |n| ≤ 2 ^ (f.fraction + 1) ∧ f.least ≤ k ∧ q = n * 2 ^ k

section Round
variable {f} {q s : ℚ}

theorem place_pos : (0 : ℚ) < 2 ^ f.lastPlace q := zpow_pos (by norm_num) _

theorem least_le_lastPlace : f.least ≤ f.lastPlace q := le_max_right _ _

theorem abs_div_place : |q / 2 ^ f.lastPlace q| = |q| / 2 ^ f.lastPlace q := by
  rw [abs_div, abs_of_pos place_pos]

theorem units_le : |f.units q| ≤ 2 ^ (f.fraction + 1) := by
  have bound : |q / 2 ^ f.lastPlace q| ≤ ((2 ^ (f.fraction + 1) : ℤ) : ℚ) := by
    have size := Int.lt_zpow_succ_log_self (R := ℚ) (b := 2) (by decide) |q|
    have place : (2 : ℚ) ^ (Int.log 2 |q| + 1) ≤ 2 ^ (f.fraction + 1) * 2 ^ f.lastPlace q := by
      rw [← zpow_natCast, ← zpow_add₀ (by norm_num)]
      refine zpow_le_zpow_right₀ (by norm_num) ?_
      have := le_max_left (Int.log 2 |q| - f.fraction) f.least
      unfold lastPlace
      push_cast
      omega
    rw [abs_div_place, div_le_iff₀ place_pos]
    push_cast
    exact (size.trans_le place).le
  rw [abs_le] at bound ⊢
  refine ⟨le_nearest ?_, nearest_le bound.2⟩
  push_cast at bound ⊢
  exact bound.1

/-- Above the lowest place the leading bit is there. -/
theorem pow_le_abs (nonzero : q ≠ 0) (above : f.least < f.lastPlace q) :
    2 ^ (f.lastPlace q + f.fraction) ≤ |q| := by
  have top : f.lastPlace q + f.fraction = Int.log 2 |q| := by
    unfold lastPlace at above ⊢
    omega
  rw [top]
  exact_mod_cast Int.zpow_log_le_self (R := ℚ) (b := 2) (by decide) (abs_pos.mpr nonzero)

theorem le_units (nonzero : q ≠ 0) (above : f.least < f.lastPlace q) :
    2 ^ f.fraction ≤ |f.units q| := by
  have bound : ((2 ^ f.fraction : ℤ) : ℚ) ≤ |q / 2 ^ f.lastPlace q| := by
    have leading := pow_le_abs nonzero above
    rw [zpow_add₀ (by norm_num), zpow_natCast, mul_comm] at leading
    rw [abs_div_place, le_div_iff₀ place_pos]
    exact_mod_cast leading
  rcases le_abs.mp bound with positive | negative
  · exact (le_nearest positive).trans (le_abs_self _)
  · have low : f.units q ≤ -2 ^ f.fraction := nearest_le (by push_cast at negative ⊢; linarith)
    exact le_abs.mpr (.inr (by omega))

theorem units_nonneg (h : 0 ≤ q) : 0 ≤ f.units q :=
  le_nearest (by exact_mod_cast div_nonneg h place_pos.le)

theorem units_nonpos (h : q ≤ 0) : f.units q ≤ 0 :=
  nearest_le (by exact_mod_cast div_nonpos_of_nonpos_of_nonneg h place_pos.le)

theorem round_nonneg (h : 0 ≤ q) : 0 ≤ f.round q :=
  mul_nonneg (by exact_mod_cast units_nonneg h) place_pos.le

theorem round_nonpos (h : q ≤ 0) : f.round q ≤ 0 :=
  mul_nonpos_of_nonpos_of_nonneg (by exact_mod_cast units_nonpos h) place_pos.le

theorem abs_round : |f.round q| = (f.units q).natAbs * 2 ^ f.lastPlace q := by
  rw [round, abs_mul, abs_of_pos place_pos, Nat.cast_natAbs, Int.cast_abs]

/-- No multiple of the last place is nearer. -/
theorem round_nearest_multiple (m : ℤ) : |f.round q - q| ≤ |m * 2 ^ f.lastPlace q - q| := by
  have scaled (z : ℤ) : |z * 2 ^ f.lastPlace q - q| =
      |z - q / 2 ^ f.lastPlace q| * 2 ^ f.lastPlace q := by
    rw [← abs_of_pos (place_pos (f := f) (q := q)), ← abs_mul, abs_of_pos place_pos, sub_mul,
      div_mul_cancel₀ _ place_pos.ne']
  rw [round, scaled, scaled]
  exact mul_le_mul_of_nonneg_right (nearest_nearest _ m) place_pos.le

theorem round_zero : f.round 0 = 0 := le_antisymm (round_nonpos le_rfl) (round_nonneg le_rfl)

/-- The smallest number with a leading bit at the place of `q` is at most as far off as what is
still smaller. -/
theorem round_nearest_small (nonzero : q ≠ 0) (above : f.least < f.lastPlace q)
    (small : |s| ≤ 2 ^ (f.lastPlace q + f.fraction)) : |f.round q - q| ≤ |s - q| := by
  have leading := pow_le_abs nonzero above
  have power : (2 : ℚ) ^ (f.lastPlace q + f.fraction) = 2 ^ f.fraction * 2 ^ f.lastPlace q := by
    rw [zpow_add₀ (by norm_num), zpow_natCast, mul_comm]
  have far := abs_sub_abs_le_abs_sub q s
  rw [abs_sub_comm q s] at far
  rcases le_total 0 q with positive | negative
  · have near := round_nearest_multiple (f := f) (q := q) (2 ^ f.fraction)
    push_cast at near
    rw [abs_of_nonneg positive] at leading far
    rw [← power, abs_sub_comm _ q, abs_sub_comm _ q, abs_of_nonneg (sub_nonneg.mpr leading)] at near
    rw [abs_sub_comm]
    linarith
  · have near := round_nearest_multiple (f := f) (q := q) (-2 ^ f.fraction)
    push_cast at near
    rw [abs_of_nonpos negative] at leading far
    have beyond : 0 ≤ -(2 : ℚ) ^ (f.lastPlace q + f.fraction) - q := by linarith
    rw [neg_mul, ← power, abs_of_nonneg beyond] at near
    linarith

/-- No number of the format is nearer than the one that `q` is rounded to. -/
theorem round_nearest (h : f.Holds s) : |f.round q - q| ≤ |s - q| := by
  obtain ⟨n, k, digits, place, rfl⟩ := h
  by_cases zero : q = 0
  · rw [zero, round_zero, sub_zero, abs_zero]
    exact abs_nonneg _
  by_cases coarse : f.lastPlace q ≤ k
  · have multiple : (n : ℚ) * 2 ^ k =
        (n * 2 ^ (k - f.lastPlace q).toNat : ℤ) * 2 ^ f.lastPlace q := by
      have split : (2 : ℚ) ^ k = 2 ^ (k - f.lastPlace q).toNat * 2 ^ f.lastPlace q := by
        rw [← zpow_natCast, ← zpow_add₀ (by norm_num)]
        congr 1
        omega
      push_cast
      rw [mul_assoc, ← split]
    rw [multiple]
    exact round_nearest_multiple _
  · refine round_nearest_small zero (by omega) ?_
    have bound : |(n : ℚ)| ≤ 2 ^ (f.fraction + 1) := by exact_mod_cast digits
    rw [abs_mul, abs_of_pos (zpow_pos (by norm_num : (0 : ℚ) < 2) k)]
    refine (mul_le_mul_of_nonneg_right bound (zpow_pos (by norm_num) k).le).trans ?_
    rw [← zpow_natCast, ← zpow_add₀ (by norm_num)]
    refine zpow_le_zpow_right₀ (by norm_num) ?_
    push_cast
    omega

end Round
end Floating
end Library
