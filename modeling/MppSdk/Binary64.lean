import Mathlib.Algebra.Order.Round
import Mathlib.Data.Int.Log
import Mathlib.Data.Rat.Floor
import Mathlib.Tactic.Linarith
import Mathlib.Tactic.NormNum
import Mathlib.Tactic.Positivity
import Mathlib.Tactic.Ring

/-! # Binary64 numbers

Double-precision numbers as the rationals they stand for, with rounding to the nearest one and
ties going to the even significand.  An integer of at most 53 bits is its own rounding
(`nearest_intCast`). -/

namespace Binary64

/-- Round to an integer, ties to even. -/
def toNearestEven (q : ℚ) : ℤ :=
  let n := ⌊q⌋
  if q - n < 1 / 2 then n
  else if 1 / 2 < q - n then n + 1
  else if n % 2 = 0 then n else n + 1

/-- The exponent of the last place of a number of `q`'s size. -/
def lastPlace (q : ℚ) : ℤ := max (Int.log 2 |q| - 52) (-1074)

/-- The nearest number whose exponent is not bounded above. -/
def nearest (q : ℚ) : ℚ := toNearestEven (q / 2 ^ lastPlace q) * 2 ^ lastPlace q

@[simp]
theorem toNearestEven_intCast (n : ℤ) : toNearestEven n = n := by
  simp [toNearestEven]

/-- Rounding moves by less than one place. -/
theorem toNearestEven_mem (q : ℚ) : ⌊q⌋ ≤ toNearestEven q ∧ toNearestEven q ≤ ⌊q⌋ + 1 := by
  unfold toNearestEven
  dsimp only
  split_ifs <;> omega

/-- A multiple of the last place is not moved. -/
theorem nearest_eq {q : ℚ} {m : ℤ} (h : q = m * 2 ^ lastPlace q) : nearest q = q := by
  have hpos : (2 : ℚ) ^ lastPlace q ≠ 0 := zpow_ne_zero _ (by norm_num)
  have hdiv : q / 2 ^ lastPlace q = m := by
    rw [div_eq_iff hpos]
    exact h
  rw [nearest, hdiv, toNearestEven_intCast, ← h]

/-- An integer below `2 ^ 54` is a double, if it is even or below `2 ^ 53`. -/
theorem nearest_intCast {n : ℤ} (hn : |n| < 2 ^ 54) (heven : 2 ^ 53 ≤ |n| → 2 ∣ n) :
    nearest n = n := by
  by_cases hplace : lastPlace n ≤ 0
  · refine nearest_eq (m := n * 2 ^ (-lastPlace n).toNat) ?_
    have hcast : ((2 : ℚ) ^ (-lastPlace n).toNat) = 2 ^ (-lastPlace n) := by
      rw [← zpow_natCast, Int.toNat_of_nonneg (by omega)]
    push_cast
    rw [hcast, mul_assoc, ← zpow_add₀ (by norm_num), neg_add_cancel, zpow_zero, mul_one]
  · -- the last place is that of the integers from `2 ^ 53` on
    have hlog : 52 < Int.log 2 |(n : ℚ)| := by
      unfold lastPlace at hplace
      omega
    have hpos : (0 : ℚ) < |(n : ℚ)| := by
      by_contra hnot
      have hzero : |(n : ℚ)| = 0 := le_antisymm (not_lt.mp hnot) (abs_nonneg _)
      rw [hzero, Int.log_zero_right] at hlog
      omega
    have hlow : (2 : ℚ) ^ (53 : ℤ) ≤ |(n : ℚ)| := by
      have hself := Int.zpow_log_le_self (b := 2) (by norm_num) hpos
      refine le_trans (zpow_le_zpow_right₀ (by norm_num) ?_) hself
      omega
    have hhigh : Int.log 2 |(n : ℚ)| < 54 := by
      have hcast : |(n : ℚ)| < ((2 : ℕ) : ℚ) ^ (54 : ℤ) := by
        rw [← Int.cast_abs]
        exact_mod_cast hn
      exact (Int.lt_zpow_iff_log_lt (by norm_num) hpos).mp hcast
    have hone : lastPlace n = 1 := by
      unfold lastPlace
      omega
    obtain ⟨m, hm⟩ := heven (by rw [← Int.cast_abs] at hlow; exact_mod_cast hlow)
    refine nearest_eq (m := m) ?_
    rw [hone, zpow_one, hm]
    push_cast
    ring

end Binary64
