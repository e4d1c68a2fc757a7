import Mathlib
import PrivateFootage.Proofs.Privacy.Params
import PrivateFootage.Proofs.Privacy.Sensitivity

/-!
# The noise scale in closed form

For sums and means the scale of the noise is one product: the width of the value range, the segments
and the chunks that a stay can touch, a factor for the function and the unit, over the budget. It is
defined exactly for stays that are not negative. Every factor can only grow with the stay and the
segments, and the quotient only shrinks with the budget, as long as the range is not turned around.
-/

namespace PrivateFootage

variable {params : PrivacyParams ℚ} {persistence scale : ℚ} {framesPerChunk chunksPerWindow : ℕ}
  {function : WindowFunction} {unit : NoiseUnit}

/-- What a mean divides by and what the unit of frames multiplies by. -/
def unitFactor (framesPerChunk chunksPerWindow : ℕ) (function : WindowFunction) (unit : NoiseUnit) :
    ℚ :=
  (if function = .mean then ((framesPerChunk * chunksPerWindow : ℕ) : ℚ)⁻¹ else 1) *
    if unit = .frames then (framesPerChunk : ℚ) else 1

/-- The noise scale of sums and means. -/
def calibratedScale (params : PrivacyParams ℚ) (persistence : ℚ)
    (framesPerChunk chunksPerWindow : ℕ) (function : WindowFunction) (unit : NoiseUnit) : ℚ :=
  (params.highest - params.lowest) * (params.segments * touchedChunks persistence framesPerChunk) *
    unitFactor framesPerChunk chunksPerWindow function unit / params.epsilon

/-- The factor for function and unit is not negative. -/
theorem unitFactor_nonneg (framesPerChunk chunksPerWindow : ℕ) (function : WindowFunction)
    (unit : NoiseUnit) : 0 ≤ unitFactor framesPerChunk chunksPerWindow function unit := by
  unfold unitFactor
  split <;> split <;> positivity

/-- With a range that is not turned around and a positive budget, the scale is not negative. -/
theorem calibratedScale_nonneg (hrange : params.lowest ≤ params.highest) (hepsilon : 0 < params.epsilon) :
    0 ≤ calibratedScale params persistence framesPerChunk chunksPerWindow function unit := by
  have hwidth : 0 ≤ params.highest - params.lowest := sub_nonneg.mpr hrange
  have hfactor := unitFactor_nonneg framesPerChunk chunksPerWindow function unit
  unfold calibratedScale
  positivity

/-- A longer stay can touch no fewer chunks. -/
theorem touchedChunks_mono {shorter longer : ℚ} (hle : shorter ≤ longer) (framesPerChunk : ℕ) :
    touchedChunks shorter framesPerChunk ≤ touchedChunks longer framesPerChunk := by
  unfold touchedChunks
  gcongr

/-- With the same bounds, the scale grows with the stay and the segments and shrinks with the
budget. -/
theorem calibratedScale_le {other : PrivacyParams ℚ} {longer : ℚ}
    (hrange : params.lowest ≤ params.highest) (hlower : other.lower = params.lower)
    (hupper : other.upper = params.upper) (hstay : persistence ≤ longer)
    (hsegments : params.segments ≤ other.segments) (hpos : 0 < other.epsilon)
    (hepsilon : other.epsilon ≤ params.epsilon) :
    calibratedScale params persistence framesPerChunk chunksPerWindow function unit ≤
      calibratedScale other longer framesPerChunk chunksPerWindow function unit := by
  have hwidth : 0 ≤ params.highest - params.lowest := sub_nonneg.mpr hrange
  have hsame : other.highest - other.lowest = params.highest - params.lowest := by
    rw [PrivacyParams.highest, PrivacyParams.lowest, hlower, hupper]
    rfl
  have hfactor := unitFactor_nonneg framesPerChunk chunksPerWindow function unit
  have htouched := touchedChunks_mono hstay framesPerChunk
  unfold calibratedScale
  rw [hsame]
  gcongr

/-- The sensitivity of a sum, over the frames of a window for a mean. -/
theorem sensitivity_eq_ok (lower upper : Bound ℚ) {segments : ℕ} (hsegments : 0 < segments)
    (hframes : 0 < framesPerChunk) (hchunks : 0 < chunksPerWindow)
    (hfunction : function = .sum ∨ function = .mean) (hpersistence : 0 ≤ persistence) :
    sensitivity lower upper persistence segments framesPerChunk chunksPerWindow function =
      .ok ((upper.highest - lower.lowest) * (segments * touchedChunks persistence framesPerChunk) *
        if function = .mean then ((framesPerChunk * chunksPerWindow : ℕ) : ℚ)⁻¹ else 1) := by
  rcases hfunction with rfl | rfl
  · rw [sensitivity_sum_eq_ok lower upper chunksPerWindow hsegments hpersistence hframes,
      if_neg (by decide), mul_one]
  · rw [sensitivity_mean_eq_ok lower upper hsegments hpersistence hframes hchunks, if_pos rfl,
      div_eq_mul_inv]

/-- For stays that are not negative the noise scale is the closed form. -/
theorem noiseScale_eq_ok (hsegments : 0 < params.segments) (hframes : 0 < framesPerChunk)
    (hchunks : 0 < chunksPerWindow) (hfunction : function = .sum ∨ function = .mean)
    (hpersistence : 0 ≤ persistence) (unit : NoiseUnit) :
    noiseScale params persistence framesPerChunk chunksPerWindow function unit =
      .ok (calibratedScale params persistence framesPerChunk chunksPerWindow function unit) := by
  have hchange := sensitivity_eq_ok params.lower params.upper hsegments hframes hchunks hfunction
    hpersistence
  rw [noiseScale_of_sensitivity chunksPerWindow hchange, calibratedScale, unitFactor,
    PrivacyParams.highest, PrivacyParams.lowest]
  congr 1
  ring

/-- A negative stay is refused. -/
theorem noiseScale_of_neg (hsegments : 0 < params.segments) (hframes : 0 < framesPerChunk)
    (hneg : persistence < 0) (function : WindowFunction) (unit : NoiseUnit) :
    noiseScale params persistence framesPerChunk chunksPerWindow function unit =
      .setting (.persistence (Scalar.plainText persistence)) := by
  have hrefused : persistenceChunks persistence framesPerChunk =
      .setting (.persistence (Scalar.plainText persistence)) := by
    rw [persistenceChunks, if_neg hframes.ne', if_pos (by simpa using hneg)]
  rw [noiseScale, sensitivity, hrefused]
  dsimp only
  rw [if_neg hsegments.ne']
  rfl

/-- The noise scale of a sum or a mean is defined exactly for stays that are not negative, and is then
the closed form. -/
theorem noiseScale_eq_ok_iff (hsegments : 0 < params.segments) (hframes : 0 < framesPerChunk)
    (hchunks : 0 < chunksPerWindow) (hfunction : function = .sum ∨ function = .mean) :
    noiseScale params persistence framesPerChunk chunksPerWindow function unit = .ok scale ↔
      0 ≤ persistence ∧
        calibratedScale params persistence framesPerChunk chunksPerWindow function unit = scale := by
  by_cases hpersistence : 0 ≤ persistence
  · rw [noiseScale_eq_ok hsegments hframes hchunks hfunction hpersistence]
    simp [hpersistence]
  · rw [noiseScale_of_neg hsegments hframes (not_le.mp hpersistence)]
    simp [hpersistence, Outcome.setting]

end PrivateFootage
