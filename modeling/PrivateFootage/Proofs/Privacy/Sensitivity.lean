import Mathlib
import PrivateFootage.Privacy.Sensitivity
import PrivateFootage.Proofs.ExactArithmetic
import PrivateFootage.Proofs.Outcome

/-!
# Sensitivity in closed form

What the calibration computes in exact arithmetic where it succeeds: the number of chunks that a stay
can touch, the sensitivity of sums and means, and the scale of the noise.
-/

namespace PrivateFootage

variable {persistence : ℚ} {framesPerChunk : ℕ}

/-- The number of chunks a stay can touch, as a natural number. -/
def touchedChunks (persistence : ℚ) (framesPerChunk : ℕ) : ℕ :=
  ⌈persistence / framesPerChunk⌉₊ + 1

/-- The number of chunks that calibration counts is the natural number above. -/
theorem persistenceChunks_eq_ok (hpersistence : 0 ≤ persistence) (hframes : 0 < framesPerChunk) :
    persistenceChunks persistence framesPerChunk =
      .ok (touchedChunks persistence framesPerChunk : ℚ) := by
  have hratio : 0 ≤ persistence / (framesPerChunk : ℚ) := by positivity
  have hceil : (⌈persistence / (framesPerChunk : ℚ)⌉ : ℚ) = ⌈persistence / (framesPerChunk : ℚ)⌉₊ :=
    (natCast_ceil_eq_intCast_ceil hratio).symm
  rw [persistenceChunks, if_neg hframes.ne', if_neg (by simpa using hpersistence), touchedChunks,
    Exact.ofNat_eq_cast, Exact.ceil_eq_cast, hceil, Nat.cast_add, Nat.cast_one]

variable {segments : ℕ} (lower upper : Bound ℚ) (chunksPerWindow : ℕ)

/-- The sensitivity of a sum: the width of the range for every chunk that can be touched. -/
theorem sensitivity_sum_eq_ok (hsegments : 0 < segments) (hpersistence : 0 ≤ persistence)
    (hframes : 0 < framesPerChunk) :
    sensitivity lower upper persistence segments framesPerChunk chunksPerWindow .sum =
      .ok ((upper.highest - lower.lowest) *
        (segments * touchedChunks persistence framesPerChunk)) := by
  rw [sensitivity, persistenceChunks_eq_ok hpersistence hframes]
  dsimp only
  rw [if_neg hsegments.ne']
  rfl

/-- The sensitivity of a mean: that of a sum over the number of frames in a window. -/
theorem sensitivity_mean_eq_ok {chunksPerWindow : ℕ} (hsegments : 0 < segments)
    (hpersistence : 0 ≤ persistence) (hframes : 0 < framesPerChunk) (hchunks : 0 < chunksPerWindow) :
    sensitivity lower upper persistence segments framesPerChunk chunksPerWindow .mean =
      .ok ((upper.highest - lower.lowest) * (segments * touchedChunks persistence framesPerChunk) /
        ((framesPerChunk * chunksPerWindow : ℕ) : ℚ)) := by
  rw [sensitivity, persistenceChunks_eq_ok hpersistence hframes]
  dsimp only
  rw [if_neg hsegments.ne']
  exact if_neg hchunks.ne'

variable {params : PrivacyParams ℚ} {function : WindowFunction} {change : ℚ}

/-- The scale of the noise is the sensitivity over the budget, counted in the unit. -/
theorem noiseScale_of_sensitivity
    (hchange : sensitivity params.lower params.upper persistence params.segments framesPerChunk
      chunksPerWindow function = .ok change) (unit : NoiseUnit) :
    noiseScale params persistence framesPerChunk chunksPerWindow function unit =
      .ok (change / params.epsilon * if unit = .frames then (framesPerChunk : ℚ) else 1) := by
  rw [noiseScale, hchange]
  cases unit with
  | chunks => exact congrArg Except.ok (mul_one _).symm
  | frames => rfl

/-- In units of the result the scale of the noise is the sensitivity over the budget. -/
theorem noiseScale_chunks_eq_ok
    (hchange : sensitivity params.lower params.upper persistence params.segments framesPerChunk
      chunksPerWindow function = .ok change) :
    noiseScale params persistence framesPerChunk chunksPerWindow function .chunks =
      .ok (change / params.epsilon) := by
  rw [noiseScale_of_sensitivity chunksPerWindow hchange, if_neg (by decide), mul_one]

end PrivateFootage
