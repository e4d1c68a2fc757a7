import Mathlib
import PrivateFootage.Proofs.Decimation.Residual

/-!
# An hour of strides covers exactly an hour of frames

Sampling ends when the cursor passes the last native frame of the hour, not after a counted number
of samples. The cursor is below that end before the last sample and exactly on it afterwards, so the
count, the sum of the strides and the end of the sampling all follow from where the cursor is.
-/

namespace PrivateFootage

namespace Decimation

variable (decimation : Decimation)

/-- The sample that is taken after a number of strides. -/
def sampleAt (steps : ℕ) : ℕ × ℕ :=
  ((decimation.cursorAt steps).frame, (decimation.stride (decimation.cursorAt steps)).toNat)

/-- A stride leads from one sampled frame to the next. -/
theorem frame_succ (steps : ℕ) :
    (decimation.cursorAt (steps + 1)).frame =
      (decimation.cursorAt steps).frame + (decimation.sampleAt steps).2 := by
  rw [cursorAt_succ]
  rfl

/-- The stride of a sample is the ratio of the rates, rounded down or up. -/
theorem sampleAt_stride (steps : ℕ) :
    ((decimation.sampleAt steps).2 = decimation.native / decimation.analysis ∨
        (decimation.sampleAt steps).2 =
          (decimation.native + decimation.analysis - 1) / decimation.analysis) ∧
      1 ≤ (decimation.sampleAt steps).2 := by
  have hcourse := decimation.onCourse_cursorAt steps
  have hone := hcourse.one_le_stride
  have heq := hcourse.stride_eq
  unfold sampleAt
  omega

/-- Sampled frames follow one another without repetition. -/
theorem strictMono_frame : StrictMono fun steps => (decimation.cursorAt steps).frame := by
  apply strictMono_nat_of_lt_succ
  intro steps
  have hstride := (decimation.sampleAt_stride steps).2
  rw [frame_succ]
  omega

/-- After the strides of an hour the cursor is on the first frame of the next hour. -/
theorem frame_analysisPerHour :
    (decimation.cursorAt decimation.analysisPerHour).frame = decimation.nativePerHour := by
  have hhour := decimation.cursorAt_seconds secondsPerHour
  rw [mul_comm secondsPerHour, mul_comm secondsPerHour] at hhour
  exact congrArg Cursor.frame hhour

/-- Before the strides of an hour are all taken the cursor is within the hour. -/
theorem frame_lt_nativePerHour {steps : ℕ} (hsteps : steps < decimation.analysisPerHour) :
    (decimation.cursorAt steps).frame < decimation.nativePerHour := by
  rw [← frame_analysisPerHour]
  exact decimation.strictMono_frame hsteps

/-- Samples taken earlier stay in front of those that follow. -/
theorem sampleFrom_eq (sampled : List (ℕ × ℕ)) (limit : ℕ) (cursor : Cursor) :
    decimation.sampleFrom sampled limit cursor =
      sampled.reverse ++ decimation.sampleFrom [] limit cursor := by
  induction limit generalizing sampled cursor with
  | zero => simp [sampleFrom]
  | succ limit ih =>
    by_cases hframe : cursor.frame < decimation.nativePerHour
    · rw [sampleFrom, if_pos hframe, ih, sampleFrom, if_pos hframe, ih [_]]
      simp
    · simp [sampleFrom, hframe]

/-- Sampling from where a number of strides lead takes one sample for each stride that is left. -/
theorem sampleFrom_cursorAt (limit steps : ℕ) (hsteps : steps ≤ decimation.analysisPerHour)
    (hlimit : decimation.analysisPerHour ≤ steps + limit) :
    decimation.sampleFrom [] limit (decimation.cursorAt steps) =
      (List.range' steps (decimation.analysisPerHour - steps)).map decimation.sampleAt := by
  induction limit generalizing steps with
  | zero =>
    have hend : decimation.analysisPerHour - steps = 0 := by omega
    simp [sampleFrom, hend]
  | succ limit ih =>
    rcases hsteps.lt_or_eq with hlt | rfl
    · have hrest : decimation.analysisPerHour - steps =
          decimation.analysisPerHour - (steps + 1) + 1 := by omega
      rw [sampleFrom, if_pos (decimation.frame_lt_nativePerHour hlt), ← cursorAt_succ, sampleFrom_eq,
        ih (steps + 1) (by omega) (by omega), hrest, List.range'_succ, List.map_cons]
      rfl
    · rw [sampleFrom, if_neg (by rw [frame_analysisPerHour]; exact lt_irrefl _)]
      simp

/-- However many samples are allowed, sampling ends by itself after those of an hour. -/
theorem samples_eq {limit : ℕ} (hlimit : decimation.analysisPerHour ≤ limit) :
    decimation.samples limit = (List.range decimation.analysisPerHour).map decimation.sampleAt := by
  have hrun := decimation.sampleFrom_cursorAt limit 0 (Nat.zero_le _) (by omega)
  rw [Nat.sub_zero, ← List.range_eq_range'] at hrun
  exact hrun

/-- The samples of an hour. -/
theorem hourSamples_eq :
    decimation.hourSamples = (List.range decimation.analysisPerHour).map decimation.sampleAt :=
  decimation.samples_eq (Nat.mul_le_mul_right _ decimation.analysis_le_native)

/-- The frames sampled in an hour are the places of the cursor. -/
theorem frames_eq :
    decimation.frames =
      (List.range decimation.analysisPerHour).map fun steps => (decimation.cursorAt steps).frame := by
  rw [frames, hourSamples_eq, List.map_map]
  rfl

/-- The strides of an hour, in order. -/
theorem strides_eq :
    decimation.strides =
      (List.range decimation.analysisPerHour).map fun steps => (decimation.sampleAt steps).2 := by
  rw [strides, hourSamples_eq, List.map_map]
  rfl

/-- With the end of the hour added, the sampled frames are the places of one stride more. -/
theorem frames_append_end :
    decimation.frames ++ [decimation.nativePerHour] =
      (List.range (decimation.analysisPerHour + 1)).map
        fun steps => (decimation.cursorAt steps).frame := by
  rw [List.range_succ, List.map_append, ← frames_eq, List.map_singleton, frame_analysisPerHour]

/-- The strides so far add up to the place of the cursor. -/
theorem sum_strides (steps : ℕ) :
    ((List.range steps).map fun step => (decimation.sampleAt step).2).sum =
      (decimation.cursorAt steps).frame := by
  induction steps with
  | zero => rfl
  | succ steps ih =>
    rw [List.range_succ, List.map_append, List.sum_append, ih, frame_succ]
    simp

/-- What it means that the samples of an hour cover it: their number, order and range, and how the
strides between them fit together. -/
structure CoversHour : Prop where
  /-- Allowing more samples than an hour has changes nothing. -/
  ends : ∀ limit, 3600 * decimation.analysis ≤ limit →
    decimation.samples limit = decimation.hourSamples
  length_frames : decimation.frames.length = 3600 * decimation.analysis
  length_strides : decimation.strides.length = 3600 * decimation.analysis
  head_frames : decimation.frames.head? = some 0
  increasing : decimation.frames.Pairwise (· < ·)
  frames_lt : ∀ frame ∈ decimation.frames, frame < 3600 * decimation.native
  /-- A stride leads to the next frame, the last one to the end of the hour. -/
  stride_links : ∀ (i frame stride : ℕ), decimation.frames[i]? = some frame →
    decimation.strides[i]? = some stride →
      (decimation.frames ++ [3600 * decimation.native])[i + 1]? = some (frame + stride)
  stride_eq : ∀ stride ∈ decimation.strides,
    stride = decimation.native / decimation.analysis ∨
      stride = (decimation.native + decimation.analysis - 1) / decimation.analysis
  one_le_stride : ∀ stride ∈ decimation.strides, 1 ≤ stride
  covered_eq : decimation.covered = 3600 * decimation.native

/-- An hour has as many samples as its seconds times the analysis rate. -/
theorem analysisPerHour_eq : decimation.analysisPerHour = 3600 * decimation.analysis :=
  mul_comm _ _

/-- An hour has as many native frames as its seconds times the native rate. -/
theorem nativePerHour_eq : decimation.nativePerHour = 3600 * decimation.native :=
  mul_comm _ _

/-- The samples of an hour cover it. -/
theorem coversHour : decimation.CoversHour where
  ends limit hlimit := by
    rw [hourSamples_eq, samples_eq _ (by rwa [analysisPerHour_eq])]
  length_frames := by rw [frames_eq, List.length_map, List.length_range, analysisPerHour_eq]
  length_strides := by rw [strides_eq, List.length_map, List.length_range, analysisPerHour_eq]
  head_frames := by
    have hpos : 0 < decimation.analysisPerHour :=
      Nat.mul_pos decimation.analysis_pos (by decide)
    rw [frames_eq, List.head?_map, List.head?_range, if_neg hpos.ne']
    rfl
  increasing := by
    rw [frames_eq, List.pairwise_map]
    exact List.pairwise_lt_range.imp fun hlt => decimation.strictMono_frame hlt
  frames_lt := by
    rw [frames_eq, ← nativePerHour_eq]
    intro frame hframe
    obtain ⟨steps, hsteps, rfl⟩ := List.mem_map.mp hframe
    exact decimation.frame_lt_nativePerHour (List.mem_range.mp hsteps)
  stride_links := by
    intro i frame stride hframe hstride
    obtain ⟨hlt, -⟩ := List.getElem?_eq_some_iff.mp hframe
    rw [frames_eq, List.length_map, List.length_range] at hlt
    rw [frames_eq, List.getElem?_map, List.getElem?_range hlt, Option.map_some,
      Option.some.injEq] at hframe
    rw [strides_eq, List.getElem?_map, List.getElem?_range hlt, Option.map_some,
      Option.some.injEq] at hstride
    rw [← nativePerHour_eq, frames_append_end, List.getElem?_map, List.getElem?_range (by omega),
      Option.map_some, frame_succ, hframe, hstride]
  stride_eq := by
    rw [strides_eq]
    intro stride hstride
    obtain ⟨steps, -, rfl⟩ := List.mem_map.mp hstride
    exact (decimation.sampleAt_stride steps).1
  one_le_stride := by
    rw [strides_eq]
    intro stride hstride
    obtain ⟨steps, -, rfl⟩ := List.mem_map.mp hstride
    exact (decimation.sampleAt_stride steps).2
  covered_eq := by
    rw [← nativePerHour_eq, ← frame_analysisPerHour, ← sum_strides, ← strides_eq, covered,
      List.sum_eq_foldl_nat]
    rfl

end Decimation

end PrivateFootage
