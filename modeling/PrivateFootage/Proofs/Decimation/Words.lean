import Mathlib
import PrivateFootage.Proofs.Decimation.Coverage

/-!
# Sampling in 64-bit words

The sampling of an hour, with every number held in a word of 64 bits: signed where rounding errors
are carried, unsigned for frame indices and strides. A value that does not fit makes the run fail.
For rates of 32 bits no run fails, whatever the number of samples it is allowed, so the words give
the same samples as unbounded numbers.

Numbers of frames are also multiplied in such words, where a product that does not fit wraps around.
-/

namespace PrivateFootage

/-- A product of numbers in a word of 64 bits. -/
def wordProduct (first second : ℕ) : ℕ := (UInt64.ofNat first * UInt64.ofNat second).toNat

/-- A product in a word is what is left of it after all full words. -/
theorem wordProduct_eq_mod (first second : ℕ) : wordProduct first second = first * second % 2 ^ 64 := by
  rw [wordProduct, UInt64.toNat_mul, UInt64.toNat_ofNat', UInt64.toNat_ofNat', ← Nat.mul_mod]

/-- A product that fits into a word does not wrap around. -/
theorem wordProduct_eq {first second : ℕ} (hfits : first * second < 2 ^ 64) :
    wordProduct first second = first * second := by
  rw [wordProduct_eq_mod, Nat.mod_eq_of_lt hfits]

namespace Decimation

/-- A value in a signed 64-bit word, if it fits. -/
def signedWord? (value : ℤ) : Option ℤ :=
  if -2 ^ 63 ≤ value ∧ value < 2 ^ 63 then some value else none

/-- A value in an unsigned 64-bit word, if it fits. -/
def unsignedWord? (value : ℤ) : Option ℕ :=
  if 0 ≤ value ∧ value < 2 ^ 64 then some value.toNat else none

/-- A quotient rounded to the nearest integer in signed words. -/
def roundDivWord? (numerator : ℤ) (denominator : ℕ) : Option ℤ := do
  let quotient ← signedWord? (numerator / denominator)
  let remainder ← signedWord? (numerator % denominator)
  let rest ← signedWord? (2 * remainder)
  if rest < denominator ∨ (rest = denominator ∧ quotient % 2 = 0) then some quotient
  else signedWord? (quotient + 1)

/-- The stride from a cursor and the cursor after it, in words. -/
def advanceWord? (decimation : Decimation) (cursor : Cursor) : Option (ℕ × Cursor) := do
  let target ← signedWord? (decimation.native + cursor.residual)
  let step ← roundDivWord? target decimation.analysis
  let product ← signedWord? (step * decimation.analysis)
  let residual ← signedWord? (target - product)
  let stride ← unsignedWord? step
  let frame ← unsignedWord? (cursor.frame + stride)
  some (stride, ⟨frame, residual⟩)

/-- Sample at most `limit` frames from a cursor up to the frame `last`, in words. -/
def sampleWordsFrom? (decimation : Decimation) (last : ℕ) :
    (limit : ℕ) → Cursor → Option (List (ℕ × ℕ))
  | 0, _ => some []
  | limit + 1, cursor =>
    if cursor.frame < last then do
      let (stride, next) ← decimation.advanceWord? cursor
      let later ← decimation.sampleWordsFrom? last limit next
      some ((cursor.frame, stride) :: later)
    else some []

/-- The first samples of an hour, at most `limit` of them, in words. -/
def sampleWords? (decimation : Decimation) (limit : ℕ) : Option (List (ℕ × ℕ)) := do
  let last ← unsignedWord? (decimation.native * secondsPerHour)
  decimation.sampleWordsFrom? last limit ⟨0, 0⟩

/-- A value within the range of a signed word fits. -/
theorem signedWord?_eq {value : ℤ} (hlower : -2 ^ 63 ≤ value) (hupper : value < 2 ^ 63) :
    signedWord? value = some value :=
  if_pos ⟨hlower, hupper⟩

/-- A natural number within the range of an unsigned word fits. -/
theorem unsignedWord?_eq {value : ℕ} (hupper : value < 2 ^ 64) :
    unsignedWord? value = some value := by
  rw [unsignedWord?, if_pos ⟨Int.natCast_nonneg value, by exact_mod_cast hupper⟩, Int.toNat_natCast]

/-- Rounding a quotient of numbers well below the range of a word needs no number beyond it. -/
theorem roundDivWord?_eq {numerator : ℤ} {denominator : ℕ} (hpos : 0 < denominator)
    (hnonneg : 0 ≤ numerator) (hnumerator : numerator < 2 ^ 62) (hdenominator : denominator < 2 ^ 62) :
    roundDivWord? numerator denominator = some (roundDiv numerator denominator) := by
  have hden : (0 : ℤ) < denominator := by exact_mod_cast hpos
  have hquotient := Int.ediv_nonneg hnonneg hden.le
  have hquotient' := Int.ediv_le_self (denominator : ℤ) hnonneg
  have hremainder := Int.emod_nonneg numerator hden.ne'
  have hremainder' := Int.emod_lt_of_pos numerator hden
  rw [roundDivWord?, signedWord?_eq (by omega) (by omega), Option.bind_eq_bind, Option.bind_some,
    signedWord?_eq (by omega) (by omega), Option.bind_some,
    signedWord?_eq (by omega) (by omega), Option.bind_some,
    signedWord?_eq (by omega) (by omega), roundDiv]
  split <;> rfl

variable {decimation : Decimation} {steps : ℕ} {cursor : Cursor}

/-- A stride of a cursor on course is far below the range of a word. -/
theorem OnCourse.stride_lt (hcourse : decimation.OnCourse steps cursor)
    (hnative : decimation.native < 2 ^ 32) : decimation.stride cursor < 2 ^ 33 := by
  have hle := decimation.analysis_le_native
  have hfloor : decimation.native / decimation.analysis ≤ decimation.native := Nat.div_le_self _ _
  have hceil : (decimation.native + decimation.analysis - 1) / decimation.analysis ≤
      decimation.native + decimation.analysis - 1 := Nat.div_le_self _ _
  rcases hcourse.stride_eq with h | h <;> omega

/-- From a cursor on course within the hour, words give the same stride and the same next cursor. -/
theorem OnCourse.advanceWord?_eq (hcourse : decimation.OnCourse steps cursor)
    (hnative : decimation.native < 2 ^ 32) (hframe : cursor.frame < decimation.nativePerHour) :
    decimation.advanceWord? cursor =
      some ((decimation.stride cursor).toNat, decimation.advance cursor) := by
  have hpos := decimation.analysis_pos
  have hle := decimation.analysis_le_native
  have hleft := hcourse.le_residual
  have hright := hcourse.residual_le
  have hone := hcourse.one_le_stride
  have hstride := hcourse.stride_lt hnative
  have hhour : decimation.nativePerHour = 3600 * decimation.native := decimation.nativePerHour_eq
  obtain ⟨hlower, hupper⟩ := decimation.stride_rest cursor
  change _ ≤ 2 * (decimation.native + cursor.residual -
    decimation.stride cursor * decimation.analysis) at hlower
  change 2 * (decimation.native + cursor.residual -
    decimation.stride cursor * decimation.analysis) ≤ _ at hupper
  have hround : roundDivWord? (decimation.native + cursor.residual) decimation.analysis =
      some (decimation.stride cursor) := roundDivWord?_eq hpos (by omega) (by omega) (by omega)
  have hcast : decimation.stride cursor = ((decimation.stride cursor).toNat : ℤ) := by omega
  have hstep : unsignedWord? (decimation.stride cursor) =
      some (decimation.stride cursor).toNat := by
    rw [hcast, unsignedWord?_eq (by omega), Int.toNat_natCast]
  have hnext : unsignedWord? (cursor.frame + ((decimation.stride cursor).toNat : ℤ)) =
      some (cursor.frame + (decimation.stride cursor).toNat) := by
    rw [← Nat.cast_add, unsignedWord?_eq (by omega)]
  -- One line for each word that the stride goes through.
  refine Option.bind_eq_some_iff.mpr ⟨_, signedWord?_eq (by omega) (by omega), ?_⟩
  refine Option.bind_eq_some_iff.mpr ⟨_, hround, ?_⟩
  refine Option.bind_eq_some_iff.mpr ⟨_, signedWord?_eq (by omega) (by omega), ?_⟩
  refine Option.bind_eq_some_iff.mpr ⟨_, signedWord?_eq (by omega) (by omega), ?_⟩
  refine Option.bind_eq_some_iff.mpr ⟨_, hstep, ?_⟩
  exact Option.bind_eq_some_iff.mpr ⟨_, hnext, rfl⟩

/-- Sampling in words from where a number of strides lead gives the same samples. -/
theorem sampleWordsFrom?_cursorAt (decimation : Decimation) (hnative : decimation.native < 2 ^ 32)
    (limit steps : ℕ) :
    decimation.sampleWordsFrom? decimation.nativePerHour limit (decimation.cursorAt steps) =
      some (decimation.sampleFrom [] limit (decimation.cursorAt steps)) := by
  induction limit generalizing steps with
  | zero => rfl
  | succ limit ih =>
    by_cases hframe : (decimation.cursorAt steps).frame < decimation.nativePerHour
    · have hstep := (decimation.onCourse_cursorAt steps).advanceWord?_eq hnative hframe
      rw [sampleWordsFrom?, if_pos hframe, hstep, sampleFrom, if_pos hframe, ← cursorAt_succ,
        sampleFrom_eq]
      simp only [Option.bind_eq_bind, Option.bind_some, ih]
      rfl
    · rw [sampleWordsFrom?, if_neg hframe, sampleFrom, if_neg hframe]
      rfl

/-- For rates of 32 bits, words give the same samples as unbounded numbers. -/
theorem sampleWords?_eq (decimation : Decimation) (hnative : decimation.native < 2 ^ 32)
    (limit : ℕ) : decimation.sampleWords? limit = some (decimation.samples limit) := by
  have hlast : unsignedWord? (decimation.native * (secondsPerHour : ℤ)) =
      some decimation.nativePerHour := by
    have hhour : decimation.native * secondsPerHour < 2 ^ 64 := by
      rw [secondsPerHour]
      omega
    rw [← Nat.cast_mul, unsignedWord?_eq hhour]
    rfl
  rw [sampleWords?, hlast]
  exact decimation.sampleWordsFrom?_cursorAt hnative limit 0

/-- Rates that allow it give a sampling with exactly these rates. -/
theorem ofRates_eq_ok {native analysis : ℕ} (hpos : 0 < analysis) (hle : analysis ≤ native) :
    ofRates native analysis = .ok ⟨native, analysis, hpos, hle⟩ := by
  rw [ofRates, if_neg (by omega), dif_neg (by omega), dif_neg (by omega)]

/-- For all rates of 32 bits with the analysis rate positive and at most the native one, sampling is
accepted, its strides cover the hour exactly, and no 64-bit word overflows on the way. -/
theorem ofRates_coversHour (native analysis : ℕ) (hpos : 1 ≤ analysis) (hle : analysis ≤ native)
    (hnative : native < 2 ^ 32) :
    ∃ decimation, ofRates native analysis = .ok decimation ∧
      decimation.native = native ∧ decimation.analysis = analysis ∧ decimation.CoversHour ∧
        ∀ limit, decimation.sampleWords? limit = some (decimation.samples limit) := by
  let decimation : Decimation := ⟨native, analysis, hpos, hle⟩
  exact ⟨decimation, ofRates_eq_ok hpos hle, rfl, rfl, decimation.coversHour,
    decimation.sampleWords?_eq hnative⟩

/-- Rates of 11 and 6 make exact ties, which are part of the hour's samples. -/
theorem ofRates_coversHour_eleven_six :
    (1 ≤ 6 ∧ 6 ≤ 11 ∧ 11 < 2 ^ 32) ∧
      ∃ decimation, ofRates 11 6 = .ok decimation ∧
        decimation.native = 11 ∧ decimation.analysis = 6 ∧ decimation.CoversHour ∧
          ∀ limit, decimation.sampleWords? limit = some (decimation.samples limit) :=
  ⟨by decide, ofRates_coversHour 11 6 (by decide) (by decide) (by decide)⟩

end Decimation

end PrivateFootage
