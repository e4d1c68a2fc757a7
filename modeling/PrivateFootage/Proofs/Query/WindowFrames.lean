import Mathlib
import PrivateFootage.Proofs.Query.Calibration

/-!
# The frames of a window

The windows of an accepted query fit into the recording, and there is at least one. A window therefore has no
more frames than the recording. If those can be counted in a word of 64 bits, so can the frames of a window:
the product of the two sizes that a mean is divided by does not wrap around, however large the sizes, and is
positive. With that and the checks on the privacy parameters, no noise scale is negative.
-/

namespace PrivateFootage

/-- The sensitivity of a mean is that of the sum over the frames of a window, and is refused where that of the
sum is. -/
theorem sensitivity_mean_eq_map {α : Type} [Scalar α] (lower upper : Bound α) (stay : α)
    (segments framesPerChunk : ℕ) {chunksPerWindow : ℕ} (hchunks : 0 < chunksPerWindow) :
    sensitivity lower upper stay segments framesPerChunk chunksPerWindow .mean =
      (sensitivity lower upper stay segments framesPerChunk chunksPerWindow .sum).map fun change =>
        change / Scalar.ofNat (framesPerChunk * chunksPerWindow) := by
  unfold sensitivity
  dsimp only
  by_cases hsegments : segments = 0
  · rw [if_pos hsegments, if_pos hsegments]
    rfl
  · rw [if_neg hsegments, if_neg hsegments]
    cases persistenceChunks stay framesPerChunk with
    | error error => rfl
    | ok touched => exact if_neg hchunks.ne'

namespace Query

variable {α : Type} {query : Query α}

/-- There is a window. -/
theorem Accepted.windowCount_pos (haccepted : query.Accepted) : 0 < query.windowCount :=
  Nat.div_pos (Nat.le_of_dvd haccepted.chunkCount_pos haccepted.windows_even) haccepted.chunksPerWindow_pos

/-- The windows have no more frames than the recording. -/
theorem Accepted.window_frames_le (haccepted : query.Accepted) :
    ∃ frames, query.config.analysisFrames query.spec.video = .ok frames ∧
      query.spec.framesPerChunk * query.spec.chunksPerWindow * query.windowCount ≤ frames := by
  obtain ⟨hours, hhours, hchunks⟩ := haccepted.chunkCount_eq
  refine ⟨_, Outcome.bind_eq_ok.mpr ⟨hours, hhours, rfl⟩, ?_⟩
  rw [windowCount, mul_assoc, Nat.mul_div_cancel' haccepted.windows_even, hchunks]
  exact Nat.mul_div_le _ _

/-- The frames of a window can be counted in a word if those of the recording can. -/
theorem Accepted.wordProduct_eq (haccepted : query.Accepted) {frames : ℕ}
    (hframes : query.spec.framesPerChunk * query.spec.chunksPerWindow * query.windowCount ≤ frames)
    (hfits : frames < 2 ^ 64) :
    wordProduct query.spec.framesPerChunk query.spec.chunksPerWindow =
      query.spec.framesPerChunk * query.spec.chunksPerWindow := by
  refine PrivateFootage.wordProduct_eq (lt_of_le_of_lt ?_ hfits)
  exact (Nat.le_mul_of_pos_right _ haccepted.windowCount_pos).trans hframes

end Query

/-- The noise scale of a sound specification is defined for every stay that is not negative, and is not
negative itself. -/
theorem QuerySpec.Calibrates.exists_noiseScale {spec : QuerySpec ℚ} {params : PrivacyParams ℚ}
    (hspec : spec.Calibrates params) {stay : ℚ} (hstay : 0 ≤ stay) (unit : NoiseUnit) :
    ∃ scale, spec.noiseScale stay unit = .ok scale ∧ 0 ≤ scale :=
  ⟨_, hspec.noiseScale_eq_ok_iff.mpr ⟨hstay, rfl⟩,
    calibratedScale_nonneg hspec.lowest_le_highest hspec.epsilon_pos⟩

/-- The windows of an accepted query fit into the recording, and there is one. So, if the frames of the
recording can be counted in a word of 64 bits, the frames of a window that a mean is divided by do not wrap
around and are not zero. In exact arithmetic the noise scale of every sum or mean with privacy parameters is
defined for all stays that are not negative, and is not negative. -/
theorem Query.window_frames_fit_recording (config : Config) :
    (∀ (α : Type) [Scalar α] (spec : QuerySpec α) (aggregator : Aggregator α) (query : Query α),
      ofSpec config spec aggregator = .ok query → ∃ frames,
        config.analysisFrames spec.video = .ok frames ∧
        config.wordAnalysisFrames spec.video = .ok (frames % 2 ^ 64) ∧
        spec.framesPerChunk * spec.chunksPerWindow * query.windowCount ≤ frames ∧
        1 ≤ query.windowCount ∧
        (frames < 2 ^ 64 →
          wordProduct spec.framesPerChunk spec.chunksPerWindow =
            spec.framesPerChunk * spec.chunksPerWindow ∧
          0 < wordProduct spec.framesPerChunk spec.chunksPerWindow ∧
          ∀ (lower upper : Bound α) (stay : α) (segments : ℕ),
            sensitivity lower upper stay segments spec.framesPerChunk spec.chunksPerWindow .mean =
              (sensitivity lower upper stay segments spec.framesPerChunk spec.chunksPerWindow .sum).map
                fun change => change / Scalar.ofNat (wordProduct spec.framesPerChunk spec.chunksPerWindow))) ∧
    ∀ (spec : QuerySpec ℚ) (aggregator : Aggregator ℚ) (query : Query ℚ) (params : PrivacyParams ℚ),
      ofSpec config spec aggregator = .ok query → spec.privacy = some params →
      spec.function = .sum ∨ spec.function = .mean →
        ∀ stay unit, 0 ≤ stay → ∃ scale, spec.noiseScale stay unit = .ok scale ∧ 0 ≤ scale := by
  constructor
  · intro α _ spec aggregator query hquery
    have haccepted := accepted_of_ofSpec hquery
    obtain ⟨chunks, -, rfl⟩ := ofSpec_eq_ok_iff.mp hquery
    obtain ⟨frames, hframes, hle⟩ := haccepted.window_frames_le
    refine ⟨frames, hframes, Config.wordAnalysisFrames_eq_ok hframes, hle, haccepted.windowCount_pos,
      fun hfits => ?_⟩
    have hproduct := haccepted.wordProduct_eq hle hfits
    dsimp only at hproduct
    rw [hproduct]
    refine ⟨rfl, Nat.mul_pos haccepted.framesPerChunk_pos haccepted.chunksPerWindow_pos, ?_⟩
    intro lower upper stay segments
    exact sensitivity_mean_eq_map lower upper stay segments spec.framesPerChunk haccepted.chunksPerWindow_pos
  · intro spec aggregator query params hquery hprivacy hfunction stay unit hstay
    exact (calibrates_of_ofSpec hquery hprivacy hfunction).exists_noiseScale hstay unit

namespace Query

/-- The mean over two hours of the street in windows of four chunks, with frames left over at the end. -/
def unevenSpec : QuerySpec ℚ := { strollSpec with framesPerChunk := 7, chunksPerWindow := 4 }

/-- The accepted query for that mean. -/
def unevenQuery : Query ℚ := ⟨unevenSpec, .zero ℚ, streetHours [0, 1], 1028, none, none⟩

/-- Of the 7200 frames of two hours, 257 windows of 28 frames take 7196. -/
theorem window_frames_fit_recording_uneven :
    ofSpec (streetHours [0, 1]) unevenSpec (.zero ℚ) = .ok unevenQuery ∧
      (streetHours [0, 1]).analysisFrames "street" = .ok 7200 ∧ unevenQuery.windowCount = 257 ∧
      7 * 4 * unevenQuery.windowCount ≤ 7200 ∧ wordProduct 7 4 = 28 ∧
      ∃ scale, unevenSpec.noiseScale 480 .frames = .ok scale ∧ 0 ≤ scale := by
  have hquery : ofSpec (streetHours [0, 1]) unevenSpec (.zero ℚ) = .ok unevenQuery := rfl
  obtain ⟨hwindows, hscales⟩ := window_frames_fit_recording (streetHours [0, 1])
  obtain ⟨frames, hframes, -, hle, -, hword⟩ := hwindows ℚ unevenSpec (.zero ℚ) unevenQuery hquery
  obtain rfl : 7200 = frames := Except.ok.inj hframes
  exact ⟨hquery, hframes, rfl, hle, (hword (by norm_num)).1,
    hscales unevenSpec (.zero ℚ) unevenQuery strollParams hquery rfl (.inr rfl) 480 .frames (by norm_num)⟩

end Query

end PrivateFootage
