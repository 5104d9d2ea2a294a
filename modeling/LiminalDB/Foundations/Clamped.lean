import LiminalDB.Foundations.Floats
import Mathlib.Tactic.Linarith
import Mathlib.Tactic.NormNum

/-! # Exact numbers in bounds

What the operations of a float type come to on exact numbers: clamping goes to the nearest number within the
bounds, so it does not move a number further than it has to. -/

namespace LiminalDB

open FloatLike (clamp)

variable {x y low high : ℚ}

/-- Clamping is taking the least of two and the greatest of two, where the bounds are in order. -/
theorem clamp_eq (h : low ≤ high) (x : ℚ) : clamp x low high = Max.max low (Min.min x high) := by
  unfold clamp
  by_cases hlow : x < low
  · simp [hlow, hlow.le, hlow.le.trans h, not_lt.mpr h]
  · rw [not_lt] at hlow
    by_cases hhigh : high < x
    · simp [not_lt.mpr hlow, hhigh, hhigh.le, h]
    · simp [not_lt.mpr hlow, hhigh, not_lt.mp hhigh, hlow]

/-- A clamped number is not below its lower bound. -/
theorem le_clamp (h : low ≤ high) (x : ℚ) : low ≤ clamp x low high := by
  rw [clamp_eq h]
  exact le_max_left _ _

/-- Nor is it above its upper bound. -/
theorem clamp_le (h : low ≤ high) (x : ℚ) : clamp x low high ≤ high := by
  rw [clamp_eq h]
  exact max_le h (min_le_right _ _)

/-- It is within any interval that has the bounds in it. -/
theorem clamp_mem {top : ℚ} (h : low ≤ high) (htop : high ≤ top) (x : ℚ) : clamp x low high ∈ Set.Icc low top :=
  ⟨le_clamp h x, (clamp_le h x).trans htop⟩

/-- A number within the bounds stays. -/
theorem clamp_of_mem (hlow : low ≤ x) (hhigh : x ≤ high) : clamp x low high = x := by
  rw [clamp_eq (hlow.trans hhigh), min_eq_left hhigh, max_eq_right hlow]

/-- A number clamped from below by zero is not negative. -/
theorem clamp_nonneg (h : 0 ≤ high) (x : ℚ) : 0 ≤ clamp x 0.0 high := by
  have hzero : (0.0 : ℚ) = 0 := by norm_num
  rw [hzero]
  exact le_clamp h x

/-- A number clamped from above by one is at most one. -/
theorem clamp_le_one (h : low ≤ 1) (x : ℚ) : clamp x low 1.0 ≤ 1 := by
  have hone : (1.0 : ℚ) = 1 := by norm_num
  rw [hone]
  exact clamp_le h x

/-- A number clamped between opposite bounds is no larger than these. -/
theorem abs_clamp_le (h : 0 ≤ high) (x : ℚ) : |clamp x (-high) high| ≤ high :=
  abs_le.mpr ⟨le_clamp (neg_le_self h) x, clamp_le (neg_le_self h) x⟩

/-- Clamping does not go down from a number below the upper bound. -/
theorem le_clamp_of_le (hy : y ≤ high) (h : low ≤ high) (hyx : y ≤ x) : y ≤ clamp x low high := by
  rw [clamp_eq h]
  exact (le_min hyx hy).trans (le_max_right _ _)

/-- Clamping does not lift a number above one that it was below, unless that is under the lower bound. -/
theorem clamp_le_of_le (hy : low ≤ y) (h : low ≤ high) (hxy : x ≤ y) : clamp x low high ≤ y := by
  rw [clamp_eq h]
  exact max_le hy ((min_le_left _ _).trans hxy)

/-- The absolute value of the numbers of the code is that of rational numbers. -/
theorem abs_rat (x : ℚ) : FloatLike.abs x = |x| := by
  show (if x < 0 then -x else x) = |x|
  split
  · rename_i hneg
    exact (abs_of_neg hneg).symm
  · rename_i hpos
    exact (abs_of_nonneg (not_lt.mp hpos)).symm

/-- The larger of a number and zero is not negative. -/
theorem max_zero_nonneg (x : ℚ) : 0 ≤ FloatLike.max x 0.0 := by
  unfold FloatLike.max FloatLike.isNan
  split
  · norm_num
  · rename_i hx
    simp only [le_refl, decide_true, Bool.not_true, Bool.or_false, decide_eq_true_eq, not_lt] at hx
    norm_num at hx
    exact hx

/-- A number between two others, on the way from one to the other. -/
theorem mem_of_towards {t : ℚ} (hx : low ≤ x ∧ x ≤ high) (hy : low ≤ y ∧ y ≤ high) (ht : 0 ≤ t) (ht' : t ≤ 1) :
    low ≤ x + (y - x) * t ∧ x + (y - x) * t ≤ high := by
  constructor
  · nlinarith [mul_nonneg ht (sub_nonneg.mpr hy.1), mul_nonneg (sub_nonneg.mpr ht') (sub_nonneg.mpr hx.1)]
  · nlinarith [mul_nonneg ht (sub_nonneg.mpr hy.2), mul_nonneg (sub_nonneg.mpr ht') (sub_nonneg.mpr hx.2)]

end LiminalDB
