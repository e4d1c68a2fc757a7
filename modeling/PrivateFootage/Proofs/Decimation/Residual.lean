import Mathlib
import PrivateFootage.Decimation

/-!
# The rounding error that strides carry along

After a number of strides the carried error is exactly what the cursor lacks from its ideal place,
counted in `1 / analysis` frames, and it never exceeds half a frame. Both facts hold at the start
and are kept by a stride, so they hold all along. They leave each stride only the two whole numbers
next to the ratio of the rates, and make the error vanish wherever the ideal place is a whole frame.
-/

namespace PrivateFootage

namespace Decimation

/-- Rounding a quotient leaves at most half the denominator on either side. -/
theorem roundDiv_rest (numerator : ℤ) {denominator : ℕ} (hpos : 0 < denominator) :
    -(denominator : ℤ) ≤ 2 * (numerator - roundDiv numerator denominator * denominator) ∧
      2 * (numerator - roundDiv numerator denominator * denominator) ≤ denominator := by
  have hsplit := Int.mul_ediv_add_emod numerator denominator
  have hnonneg := Int.emod_nonneg numerator (by omega : (denominator : ℤ) ≠ 0)
  have hlt := Int.emod_lt_of_pos numerator (by omega : (0 : ℤ) < denominator)
  unfold roundDiv
  dsimp only
  split
  · rw [mul_comm (numerator / (denominator : ℤ))]
    omega
  · rw [add_mul, one_mul, mul_comm (numerator / (denominator : ℤ))]
    omega

/-- Where a cursor is after a number of strides: the carried error is what it lacks from the ideal
place, and is at most half a frame. -/
structure OnCourse (decimation : Decimation) (steps : ℕ) (cursor : Cursor) : Prop where
  residual_eq : cursor.residual = steps * decimation.native - decimation.analysis * cursor.frame
  le_residual : -(decimation.analysis : ℤ) ≤ 2 * cursor.residual
  residual_le : 2 * cursor.residual ≤ decimation.analysis

variable {decimation : Decimation} {steps : ℕ} {cursor : Cursor}

/-- The first frame of an hour is on course. -/
theorem onCourse_start (decimation : Decimation) : decimation.OnCourse 0 ⟨0, 0⟩ := by
  constructor <;> simp

/-- An error of whole frames that is at most half a frame is none. -/
theorem eq_zero_of_multiple {analysis residual : ℤ} (hpos : 0 < analysis)
    (hdvd : analysis ∣ residual) (hlower : -analysis ≤ 2 * residual)
    (hupper : 2 * residual ≤ analysis) : residual = 0 := by
  apply Int.eq_zero_of_abs_lt_dvd hdvd
  rw [abs_lt]
  omega

/-- A cursor has no error where its ideal place is a whole frame. -/
theorem OnCourse.residual_eq_zero (hcourse : decimation.OnCourse steps cursor)
    (hdvd : decimation.analysis ∣ steps * decimation.native) : cursor.residual = 0 := by
  have hpos : (0 : ℤ) < decimation.analysis := by exact_mod_cast decimation.analysis_pos
  apply eq_zero_of_multiple hpos _ hcourse.le_residual hcourse.residual_le
  rw [hcourse.residual_eq]
  exact dvd_sub (by exact_mod_cast hdvd) (dvd_mul_right _ _)

/-- The error left after a stride is again at most half a frame. -/
theorem stride_rest (decimation : Decimation) (cursor : Cursor) :
    -(decimation.analysis : ℤ) ≤ 2 * (decimation.advance cursor).residual ∧
      2 * (decimation.advance cursor).residual ≤ decimation.analysis :=
  roundDiv_rest _ decimation.analysis_pos

/-- Where the rates divide evenly, every stride is their ratio. -/
theorem OnCourse.stride_of_dvd (hcourse : decimation.OnCourse steps cursor)
    (hdvd : decimation.analysis ∣ decimation.native) :
    decimation.stride cursor = decimation.native / decimation.analysis := by
  have hpos : (0 : ℤ) < decimation.analysis := by exact_mod_cast decimation.analysis_pos
  have hnative : (decimation.analysis : ℤ) ∣ decimation.native := by exact_mod_cast hdvd
  have hresidual := hcourse.residual_eq_zero (hdvd.mul_left steps)
  obtain ⟨hlower, hupper⟩ := decimation.stride_rest cursor
  have hrest : (decimation.advance cursor).residual = 0 := by
    apply eq_zero_of_multiple hpos _ hlower hupper
    change (decimation.analysis : ℤ) ∣ decimation.native + cursor.residual - _ * _
    rw [hresidual, add_zero]
    exact dvd_sub hnative (dvd_mul_left _ _)
  change decimation.native + cursor.residual - decimation.stride cursor * decimation.analysis = 0
    at hrest
  rw [hresidual, add_zero, sub_eq_zero] at hrest
  exact (Int.ediv_eq_of_eq_mul_left hpos.ne' hrest).symm

/-- A stride goes neither below the ratio of the rates rounded down nor above it rounded up. -/
theorem OnCourse.stride_eq (hcourse : decimation.OnCourse steps cursor) :
    decimation.stride cursor = (decimation.native / decimation.analysis : ℕ) ∨
      decimation.stride cursor =
        ((decimation.native + decimation.analysis - 1) / decimation.analysis : ℕ) := by
  have hpos := decimation.analysis_pos
  by_cases hdvd : decimation.analysis ∣ decimation.native
  · left
    rw [hcourse.stride_of_dvd hdvd, Int.natCast_div]
  · have hsplit := Nat.div_add_mod decimation.native decimation.analysis
    have hlt := Nat.mod_lt decimation.native hpos
    have hmod : 0 < decimation.native % decimation.analysis :=
      Nat.pos_of_ne_zero fun h => hdvd (Nat.dvd_of_mod_eq_zero h)
    have hceil : (decimation.native + decimation.analysis - 1) / decimation.analysis =
        decimation.native / decimation.analysis + 1 := by
      apply Nat.div_eq_of_lt_le
      · rw [add_mul, one_mul, mul_comm]
        omega
      · rw [add_mul, add_mul, one_mul, mul_comm]
        omega
    -- Both errors are at most half a frame, so the stride is within one of the ratio.
    obtain ⟨hlower, hupper⟩ := decimation.stride_rest cursor
    change _ ≤ 2 * (decimation.native + cursor.residual -
      decimation.stride cursor * decimation.analysis) at hlower
    change 2 * (decimation.native + cursor.residual -
      decimation.stride cursor * decimation.analysis) ≤ _ at hupper
    have hleft := hcourse.le_residual
    have hright := hcourse.residual_le
    zify at hsplit hlt hmod hpos
    have hexcess : (decimation.stride cursor - decimation.native / decimation.analysis) *
        decimation.analysis = decimation.stride cursor * decimation.analysis -
          decimation.analysis * (decimation.native / decimation.analysis) := by ring
    have habove : -1 < decimation.stride cursor - decimation.native / decimation.analysis := by
      apply lt_of_mul_lt_mul_right _ hpos.le
      rw [hexcess]
      omega
    have hbelow : decimation.stride cursor - decimation.native / decimation.analysis < 2 := by
      apply lt_of_mul_lt_mul_right _ hpos.le
      rw [hexcess]
      omega
    rw [hceil, Nat.cast_add, Int.natCast_div]
    omega

/-- Every stride goes at least one frame ahead. -/
theorem OnCourse.one_le_stride (hcourse : decimation.OnCourse steps cursor) :
    1 ≤ decimation.stride cursor := by
  have hratio : 1 ≤ decimation.native / decimation.analysis :=
    (Nat.one_le_div_iff decimation.analysis_pos).mpr decimation.analysis_le_native
  have hceil : decimation.native / decimation.analysis ≤
      (decimation.native + decimation.analysis - 1) / decimation.analysis :=
    Nat.div_le_div_right (by have := decimation.analysis_pos; omega)
  rcases hcourse.stride_eq with h | h <;> omega

/-- A stride keeps the cursor on course. -/
theorem OnCourse.advance (hcourse : decimation.OnCourse steps cursor) :
    decimation.OnCourse (steps + 1) (decimation.advance cursor) := by
  obtain ⟨hlower, hupper⟩ := decimation.stride_rest cursor
  refine ⟨?_, hlower, hupper⟩
  have hstride : ((decimation.stride cursor).toNat : ℤ) = decimation.stride cursor :=
    Int.toNat_of_nonneg (by have := hcourse.one_le_stride; omega)
  change decimation.native + cursor.residual - decimation.stride cursor * decimation.analysis =
    _ - decimation.analysis * ((cursor.frame + (decimation.stride cursor).toNat : ℕ) : ℤ)
  rw [hcourse.residual_eq, Nat.cast_add cursor.frame, hstride]
  push_cast
  ring

/-- The cursor after a number of strides from the start of an hour. -/
def cursorAt (decimation : Decimation) (steps : ℕ) : Cursor :=
  decimation.advance^[steps] ⟨0, 0⟩

/-- One stride more is a stride from the cursor before. -/
theorem cursorAt_succ (decimation : Decimation) (steps : ℕ) :
    decimation.cursorAt (steps + 1) = decimation.advance (decimation.cursorAt steps) :=
  Function.iterate_succ_apply' _ _ _

/-- The cursor stays on course through any number of strides. -/
theorem onCourse_cursorAt (decimation : Decimation) (steps : ℕ) :
    decimation.OnCourse steps (decimation.cursorAt steps) := by
  induction steps with
  | zero => exact onCourse_start decimation
  | succ steps ih =>
    rw [cursorAt_succ]
    exact ih.advance

/-- After whole seconds the cursor is exactly on the first frame of the next one. -/
theorem cursorAt_seconds (decimation : Decimation) (seconds : ℕ) :
    decimation.cursorAt (seconds * decimation.analysis) = ⟨seconds * decimation.native, 0⟩ := by
  have hcourse := decimation.onCourse_cursorAt (seconds * decimation.analysis)
  have hzero := hcourse.residual_eq_zero ((Nat.dvd_mul_left _ _).mul_right _)
  have hplace := hcourse.residual_eq
  have hpos : (decimation.analysis : ℤ) ≠ 0 := by exact_mod_cast decimation.analysis_pos.ne'
  have hscaled : (decimation.analysis : ℤ) *
      (decimation.cursorAt (seconds * decimation.analysis)).frame =
        decimation.analysis * (seconds * decimation.native : ℕ) := by
    rw [hzero] at hplace
    push_cast at hplace ⊢
    linarith
  have hframe : (decimation.cursorAt (seconds * decimation.analysis)).frame =
      seconds * decimation.native := by
    exact_mod_cast mul_left_cancel₀ hpos hscaled
  calc decimation.cursorAt (seconds * decimation.analysis)
      = ⟨(decimation.cursorAt (seconds * decimation.analysis)).frame,
          (decimation.cursorAt (seconds * decimation.analysis)).residual⟩ := rfl
    _ = ⟨seconds * decimation.native, 0⟩ := by rw [hframe, hzero]

end Decimation

end PrivateFootage
