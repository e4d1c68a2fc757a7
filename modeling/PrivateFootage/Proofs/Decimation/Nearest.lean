import Mathlib
import PrivateFootage.Proofs.Decimation.Words

/-!
# Sampled frames are nearest to their ideal places

The ideal place of a sample is its number times the ratio of the rates, and is never computed. The
error that strides carry along is the distance from it, so a sampled frame is a whole number nearest
to its ideal place. There is a second one only where the ideal place is exactly between two frames.

After a second the carried error is gone, and strides depend on nothing else, so each second of the
recording is sampled like the one before.
-/

namespace PrivateFootage

namespace Decimation

/-- A whole number is nearest to an ideal place, and no other is as near unless the place is exactly
halfway between two. -/
structure IsNearest (ideal : ℚ) (place : ℤ) : Prop where
  abs_le : ∀ other : ℤ, |place - ideal| ≤ |other - ideal|
  unique : (¬∃ whole : ℤ, ideal = whole + 1 / 2) →
    ∀ other : ℤ, other ≠ place → |place - ideal| < |other - ideal|

/-- Other whole numbers are at least one off. -/
theorem one_sub_abs_le {ideal : ℚ} {place other : ℤ} (hother : other ≠ place) :
    1 - |place - ideal| ≤ |other - ideal| := by
  have hapart : (1 : ℚ) ≤ |(other : ℚ) - place| := by
    exact_mod_cast Int.one_le_abs (sub_ne_zero.mpr hother)
  have hdetour := abs_sub_le (other : ℚ) ideal place
  rw [abs_sub_comm ideal] at hdetour
  linarith

/-- A whole number at most one half off is nearest. -/
theorem isNearest_of_abs_le {ideal : ℚ} {place : ℤ} (hhalf : |place - ideal| ≤ 1 / 2) :
    IsNearest ideal place where
  abs_le other := by
    by_cases hother : other = place
    · rw [hother]
    · have hfar := @one_sub_abs_le ideal place other hother
      linarith
  unique hnot other hother := by
    have hlt : |place - ideal| < 1 / 2 := by
      apply lt_of_le_of_ne hhalf
      intro htie
      apply hnot
      rcases abs_choice ((place : ℚ) - ideal) with h | h
      · exact ⟨place - 1, by push_cast; linarith⟩
      · exact ⟨place, by linarith⟩
    have hfar := @one_sub_abs_le ideal place other hother
    linarith

variable (decimation : Decimation)

/-- The carried error, taken from where the cursor is, is at most half a frame. -/
theorem two_mul_abs_le (steps : ℕ) :
    2 * |(decimation.analysis : ℤ) * (decimation.cursorAt steps).frame - steps * decimation.native| ≤
      decimation.analysis := by
  have hcourse := decimation.onCourse_cursorAt steps
  have hleft := hcourse.le_residual
  have hright := hcourse.residual_le
  rw [hcourse.residual_eq] at hleft hright
  have habs : |(decimation.analysis : ℤ) * (decimation.cursorAt steps).frame -
      steps * decimation.native| * 2 ≤ decimation.analysis := by
    rw [← abs_two, ← abs_mul, abs_le]
    constructor <;> linarith
  linarith

/-- The cursor is on a frame nearest to the ideal place. -/
theorem isNearest_cursorAt (steps : ℕ) :
    IsNearest ((steps * decimation.native : ℚ) / decimation.analysis)
      (decimation.cursorAt steps).frame := by
  have hpos : (0 : ℚ) < decimation.analysis := by exact_mod_cast decimation.analysis_pos
  have hbound := decimation.two_mul_abs_le steps
  generalize ((decimation.cursorAt steps).frame : ℤ) = frame at hbound ⊢
  have hoff : (frame : ℚ) - steps * decimation.native / decimation.analysis =
      ((decimation.analysis * frame - steps * decimation.native : ℤ) : ℚ) / decimation.analysis := by
    push_cast
    field_simp
  have hcast : (2 : ℚ) * |((decimation.analysis * frame - steps * decimation.native : ℤ) : ℚ)| ≤
      decimation.analysis := by
    exact_mod_cast hbound
  apply isNearest_of_abs_le
  rw [hoff, abs_div, abs_of_pos hpos, div_le_iff₀ hpos]
  linarith

/-- The cursor a number of frames further on. -/
def Cursor.shift (cursor : Cursor) (frames : ℕ) : Cursor :=
  { cursor with frame := frames + cursor.frame }

/-- A stride does not depend on where in the hour it is taken. -/
theorem advance_shift (cursor : Cursor) (frames : ℕ) :
    decimation.advance (cursor.shift frames) = (decimation.advance cursor).shift frames := by
  simp [advance, stride, Cursor.shift, Nat.add_assoc]

/-- A second later the cursor is a second of frames further on, with the same error carried. -/
theorem cursorAt_add_analysis (steps : ℕ) :
    decimation.cursorAt (steps + decimation.analysis) =
      (decimation.cursorAt steps).shift decimation.native := by
  induction steps with
  | zero =>
    have hsecond := decimation.cursorAt_seconds 1
    rw [one_mul, one_mul] at hsecond
    rw [Nat.zero_add, hsecond]
    simp [cursorAt, Cursor.shift]
  | succ steps ih => rw [Nat.succ_add, cursorAt_succ, cursorAt_succ, ih, advance_shift]

/-- The frame at a position of the hour. -/
theorem getElem?_frames {i : ℕ} (hi : i < 3600 * decimation.analysis) :
    decimation.frames[i]? = some (decimation.cursorAt i).frame := by
  rw [← analysisPerHour_eq] at hi
  rw [frames_eq, List.getElem?_map, List.getElem?_range hi, Option.map_some]

/-- For all rates with the analysis rate positive and at most the native one, every frame sampled in
an hour is nearest to its ideal place, and the frame sampled a second later is a second of frames
further on. -/
theorem ofRates_samplesNearest (native analysis : ℕ) (hpos : 1 ≤ analysis) (hle : analysis ≤ native) :
    ∃ decimation, ofRates native analysis = .ok decimation ∧
      ∀ i < 3600 * analysis, ∃ frame, decimation.frames[i]? = some frame ∧
        2 * |(analysis * frame - i * native : ℤ)| ≤ analysis ∧
        IsNearest ((i * native : ℚ) / analysis) frame ∧
        (i + analysis < 3600 * analysis →
          decimation.frames[i + analysis]? = some (native + frame)) := by
  let decimation : Decimation := ⟨native, analysis, hpos, hle⟩
  refine ⟨decimation, ofRates_eq_ok hpos hle, fun i hi => ?_⟩
  refine ⟨(decimation.cursorAt i).frame, decimation.getElem?_frames hi,
    decimation.two_mul_abs_le i, decimation.isNearest_cursorAt i, fun hnext => ?_⟩
  rw [decimation.getElem?_frames hnext]
  exact congrArg (fun cursor => some cursor.frame) (decimation.cursorAt_add_analysis i)

/-- Rates of 11 and 6 put every sixth ideal place, starting with the fourth, halfway between frames. -/
theorem ofRates_samplesNearest_eleven_six :
    (1 ≤ 6 ∧ 6 ≤ 11) ∧ ∃ decimation, ofRates 11 6 = .ok decimation ∧
      ∀ i : ℕ, i < 3600 * 6 → ∃ frame : ℕ, decimation.frames[i]? = some frame ∧
        2 * |((6 : ℕ) * frame - i * (11 : ℕ) : ℤ)| ≤ (6 : ℕ) ∧
        IsNearest ((i * (11 : ℕ) : ℚ) / (6 : ℕ)) frame ∧
        (i + 6 < 3600 * 6 → decimation.frames[i + 6]? = some (11 + frame)) :=
  ⟨by decide, ofRates_samplesNearest 11 6 (by decide) (by decide)⟩

end Decimation

end PrivateFootage
