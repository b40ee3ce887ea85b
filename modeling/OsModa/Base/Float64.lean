import Mathlib.Data.Int.Log
import Mathlib.Data.Rat.Floor

/-!
The arithmetic of `f64` on finite values.

A value is the rational number that it stands for, and an operation rounds the exact result
to the nearest `f64`, ties to even (`fl`), where small results lose digits as subnormal
numbers do. Infinities and NaN are left out: what is computed with here are counts, shares
and percentages, far from the largest `f64`.
-/

namespace OsModa.Float64

/-- The nearest integer, the even one of two. -/
def roundEven (x : ℚ) : ℤ :=
  if x - ⌊x⌋ < 1 / 2 then ⌊x⌋
  else if 1 / 2 < x - ⌊x⌋ then ⌊x⌋ + 1
  else ⌊x⌋ + ⌊x⌋ % 2

/-- The distance between two `f64` around a number: 52 bits follow the leading one. -/
def quantum (x : ℚ) : ℚ := 2 ^ (max (Int.log 2 |x|) (-1022) - 52)

/-- The nearest `f64`. -/
def fl (x : ℚ) : ℚ := roundEven (x / quantum x) * quantum x

/-- The nearest integer to the square root of a number. -/
def sqrtEven (x : ℚ) : ℤ :=
  let k : ℤ := Nat.sqrt ⌊x⌋₊
  if x < (k + 1 / 2) ^ 2 then k else if (k + 1 / 2) ^ 2 < x then k + 1 else k + k % 2

/-- `f64::sqrt` of a number that is not negative. -/
def sqrt (x : ℚ) : ℚ :=
  let unit : ℚ := 2 ^ (Int.log 2 x / 2 - 52)
  sqrtEven (x / unit ^ 2) * unit

/-- `f64::clamp`. -/
def clamp (x low high : ℚ) : ℚ := max low (min x high)

theorem quantum_pos (x : ℚ) : 0 < quantum x := zpow_pos two_pos _

theorem floor_le_roundEven (x : ℚ) : ⌊x⌋ ≤ roundEven x := by
  have hparity := Int.emod_nonneg ⌊x⌋ (by decide : (2 : ℤ) ≠ 0)
  unfold roundEven
  split_ifs <;> omega

theorem fl_nonneg {x : ℚ} (hx : 0 ≤ x) : 0 ≤ fl x := by
  have hfloor : 0 ≤ ⌊x / quantum x⌋ := Int.floor_nonneg.mpr (div_nonneg hx (quantum_pos x).le)
  have hround : 0 ≤ roundEven (x / quantum x) := hfloor.trans (floor_le_roundEven _)
  exact mul_nonneg (by exact_mod_cast hround) (quantum_pos x).le

theorem fl_nonpos {x : ℚ} (hx : x ≤ 0) : fl x ≤ 0 := by
  have hscaled : x / quantum x ≤ 0 := div_nonpos_of_nonpos_of_nonneg hx (quantum_pos x).le
  have hround : roundEven (x / quantum x) ≤ 0 := by
    rcases hscaled.lt_or_eq with hneg | hzero
    · have hfloor : ⌊x / quantum x⌋ < 0 := Int.floor_lt.mpr (by exact_mod_cast hneg)
      have hparity := Int.emod_lt_of_pos ⌊x / quantum x⌋ (by decide : (0 : ℤ) < 2)
      unfold roundEven
      split_ifs <;> omega
    · rw [hzero]
      decide +kernel
  exact mul_nonpos_of_nonpos_of_nonneg (by exact_mod_cast hround) (quantum_pos x).le

theorem pos_of_fl_pos {x : ℚ} (h : 0 < fl x) : 0 < x :=
  lt_of_not_ge fun hx => (fl_nonpos hx).not_gt h

theorem roundEven_le (x : ℚ) : (roundEven x : ℚ) ≤ x + 1 / 2 := by
  have hfloor := Int.floor_le x
  have hparity : ((⌊x⌋ % 2 : ℤ) : ℚ) ≤ 1 := by
    exact_mod_cast Int.lt_add_one_iff.mp (Int.emod_lt_of_pos ⌊x⌋ (by decide))
  unfold roundEven
  split_ifs <;> push_cast <;> linarith

/-- Rounding adds at most half of a distance. -/
theorem fl_le_add (x : ℚ) : fl x ≤ x + quantum x / 2 := by
  have hround := mul_le_mul_of_nonneg_right (roundEven_le (x / quantum x)) (quantum_pos x).le
  calc fl x ≤ (x / quantum x + 1 / 2) * quantum x := hround
    _ = x + quantum x / 2 := by
      rw [add_mul, div_mul_cancel₀ _ (quantum_pos x).ne']
      ring

/-- Between zero and one the distance is at most `2 ^ (-52)`. -/
theorem quantum_le {x : ℚ} (h : |x| ≤ 1) : quantum x ≤ 2 ^ (-52 : ℤ) := by
  have hlog : Int.log 2 |x| ≤ 0 := by
    rcases (abs_nonneg x).eq_or_lt with hzero | hpos
    · rw [← hzero, Int.log_zero_right]
    · simpa using Int.log_mono_right hpos h
  exact zpow_le_zpow_right₀ (by norm_num) (by omega)

theorem clamp_bounds {x low high : ℚ} (h : low ≤ high) :
    low ≤ clamp x low high ∧ clamp x low high ≤ high :=
  ⟨le_max_left _ _, max_le h (min_le_right _ _)⟩

/-- The `f64` next to 0.8. -/
example : fl (4 / 5) = 3602879701896397 / 2 ^ 52 := by decide +kernel

end OsModa.Float64
