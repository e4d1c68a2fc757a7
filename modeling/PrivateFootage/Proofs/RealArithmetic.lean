import Mathlib
import PrivateFootage.Proofs.ExactArithmetic

/-!
# The analysis in real arithmetic

The real numbers as numbers of the analysis, with their square root and natural logarithm. Statements about
noise are made about this instance, since the logarithm of a rational is seldom rational.

A real number is written as the rational that it is equal to. An irrational has no decimal and no text; no
statement here reads one.
-/

namespace PrivateFootage.Reals

/-- The rational that a real number is equal to. -/
noncomputable def rational? (value : ℝ) : Option ℚ :=
  open Classical in if h : ∃ rational : ℚ, rational = value then some h.choose else none

/-- Exact arithmetic on real numbers. -/
noncomputable scoped instance scalar : Scalar ℝ where
  ofNat n := n
  decideLE := inferInstance
  decideLT := inferInstance
  precedes a b := decide (a ≤ b)
  precedes_total a b := by simpa using le_total a b
  precedes_trans a b c := by simpa using le_trans
  isFinite _ := true
  ceil value := ⌈value⌉
  index? value := (rational? value).bind Exact.index?
  ofDecimal? decimal := some (Exact.ofDecimal decimal)
  ofWritten written := Exact.ofWritten written
  toDecimal? value := (rational? value).bind Exact.toDecimal?
  plainText value := (rational? value).elim "" toString
  fixedText places value := (rational? value).elim "" (Exact.fixedText places)

/-- Square roots and natural logarithms of real numbers. -/
noncomputable scoped instance analytic : Analytic ℝ where
  sqrt := Real.sqrt
  ln := Real.log

/-- The number two. -/
@[simp] theorem two_eq : (Scalar.two : ℝ) = 2 := Nat.cast_ofNat

/-- One half. -/
@[simp] theorem half_eq : (Scalar.half : ℝ) = 1 / 2 := by
  rw [Scalar.half, two_eq]

/-- The magnitude of a real number is its absolute value. -/
@[simp] theorem magnitude_eq_abs (value : ℝ) : Scalar.magnitude value = |value| := by
  unfold Scalar.magnitude
  split
  · next hneg => exact (abs_of_neg hneg).symm
  · next hnonneg => exact (abs_of_nonneg (not_lt.mp hnonneg)).symm

/-- The sign of a real number other than zero. -/
theorem sign_eq_sign {value : ℝ} (hvalue : value ≠ 0) : Scalar.sign value = (SignType.sign value : ℝ) := by
  unfold Scalar.sign
  rcases lt_or_gt_of_ne hvalue with hneg | hpos
  · rw [if_pos hneg, sign_neg hneg]
    rfl
  · rw [if_neg hpos.not_gt, sign_pos hpos]
    rfl

end PrivateFootage.Reals
