import Mathlib
import PrivateFootage.Proofs.Decimal.ExactResults
import PrivateFootage.Proofs.Noise.Stream
import PrivateFootage.Proofs.RealArithmetic

/-!
# Noise is finite and symmetric

A draw runs an odd multiple of `2 ^ -53` through the quantile function. The number whose logarithm it takes is
twice the smaller of the probability and its complement: a multiple of `2 ^ -52` that is neither zero nor one.
So every draw is bounded and none is zero, and complementary probabilities have opposite draws.

Up to the logarithm nothing is rounded: the doubles that a draw goes through are these very numbers. Bounds and
symmetry are those of the same draw in real arithmetic.
-/

namespace PrivateFootage.Noise

open Binary Reals

/-- The number whose logarithm a quantile takes. -/
def tail {α : Type} [Scalar α] (probability : α) : α :=
  1 - Scalar.two * Scalar.magnitude (probability - Scalar.half)

/-- The uniform number with an index. -/
def openUniform (index : ℕ) : ℚ :=
  (2 * index + 1) / 2 ^ 53

/-- How many times `2 ^ -52` the number is whose logarithm is taken for the uniform number with an index. -/
def tailCount (index : ℕ) : ℕ :=
  min (2 * index + 1) (2 ^ 53 - (2 * index + 1))

variable {probability scale : ℝ} {index : ℕ}

/-! ### Quantiles of real numbers -/

/-- A quantile takes the logarithm of twice the smaller of a probability and its complement. -/
theorem tail_eq_min (probability : ℝ) : tail probability = 2 * min probability (1 - probability) := by
  rw [tail, two_eq, half_eq, magnitude_eq_abs]
  rcases le_total probability (1 / 2) with hle | hle
  · rw [abs_of_nonpos (by linarith), min_eq_left (by linarith)]
    ring
  · rw [abs_of_nonneg (by linarith), min_eq_right (by linarith)]
    ring

/-- Only one half is as large as its complement. -/
theorem tail_lt_one (hne : probability ≠ 1 / 2) : tail probability < 1 := by
  rw [tail_eq_min]
  rcases lt_or_gt_of_ne hne with hlt | hgt
  · linarith [min_le_left probability (1 - probability)]
  · linarith [min_le_right probability (1 - probability)]

/-- A quantile has the sign of the distance from one half and the magnitude of a logarithm. -/
theorem laplaceQuantile_eq (probability scale : ℝ) :
    laplaceQuantile probability scale =
      SignType.sign (probability - 1 / 2) * (scale * -Real.log (tail probability)) := by
  change -scale * Scalar.sign (probability - Scalar.half) * Real.log (tail probability) = _
  by_cases hhalf : probability = 1 / 2
  · -- The logarithm vanishes here, so it does not matter that zero counts as positive.
    have hone : tail (1 / 2 : ℝ) = 1 := by
      rw [tail_eq_min]
      norm_num
    rw [hhalf, hone, Real.log_one]
    ring
  · rw [half_eq, sign_eq_sign (sub_ne_zero.mpr hhalf)]
    ring

/-- Complementary probabilities have opposite quantiles. -/
theorem laplaceQuantile_one_sub (probability scale : ℝ) :
    laplaceQuantile (1 - probability) scale = -laplaceQuantile probability scale := by
  have htail : tail (1 - probability) = tail probability := by
    rw [tail_eq_min, tail_eq_min, sub_sub_cancel, min_comm]
  have hsign : SignType.sign (1 - probability - 1 / 2) = -SignType.sign (probability - 1 / 2) := by
    rw [← Left.sign_neg]
    congr 1
    ring
  rw [laplaceQuantile_eq, laplaceQuantile_eq, htail, hsign, SignType.coe_neg, neg_mul]

/-- Away from one half, the logarithm that a quantile takes is below zero. -/
theorem log_tail_neg (htail : 0 < tail probability) (hne : probability ≠ 1 / 2) :
    Real.log (tail probability) < 0 :=
  Real.log_neg htail (tail_lt_one hne)

/-- Away from one half, the magnitude of a quantile is not zero. -/
theorem scaled_log_pos (hscale : 0 < scale) (htail : 0 < tail probability) (hne : probability ≠ 1 / 2) :
    0 < scale * -Real.log (tail probability) :=
  mul_pos hscale (neg_pos.mpr (log_tail_neg htail hne))

/-- A quantile has the sign of the distance from one half. -/
theorem sign_laplaceQuantile (hscale : 0 < scale) (htail : 0 < tail probability) (hne : probability ≠ 1 / 2) :
    SignType.sign (laplaceQuantile probability scale) = SignType.sign (probability - 1 / 2) := by
  rw [laplaceQuantile_eq, sign_mul, sign_pos (scaled_log_pos hscale htail hne), mul_one]
  cases SignType.sign (probability - 1 / 2) <;> simp

/-- A quantile is at most the scale times the magnitude of a logarithm. -/
theorem abs_laplaceQuantile_le (hscale : 0 < scale) (htail : 0 < tail probability) (hne : probability ≠ 1 / 2) :
    |laplaceQuantile probability scale| ≤ scale * -Real.log (tail probability) := by
  have hpositive := scaled_log_pos hscale htail hne
  have hsign : |(SignType.sign (probability - 1 / 2) : ℝ)| ≤ 1 := by
    cases SignType.sign (probability - 1 / 2) <;> simp
  rw [laplaceQuantile_eq, abs_mul, abs_of_pos hpositive]
  exact mul_le_of_le_one_left hpositive.le hsign

/-- The logarithm of a number from `2 ^ -52` on is at least that of `2 ^ -52`. -/
theorem neg_log_le {value : ℝ} (hvalue : 1 / 2 ^ 52 ≤ value) : -Real.log value ≤ 52 * Real.log 2 := by
  have hlog : Real.log (1 / 2 ^ 52) = -(52 * Real.log 2) := by
    rw [one_div, Real.log_inv, Real.log_pow]
    norm_num
  rw [neg_le, ← hlog]
  exact Real.log_le_log (by positivity) hvalue

/-! ### Uniform numbers -/

/-- The index from the other end belongs to the complement. -/
theorem openUniform_mirror (hindex : index < 2 ^ 52) : openUniform (2 ^ 52 - 1 - index) = 1 - openUniform index := by
  rw [openUniform, openUniform, Nat.sub_sub, Nat.cast_sub (by omega)]
  push_cast
  ring

/-- There is at least one `2 ^ -52` on either side, and less than one in all. -/
theorem tailCount_bounds (hindex : index < 2 ^ 52) : 1 ≤ tailCount index ∧ tailCount index + 1 ≤ 2 ^ 52 := by
  unfold tailCount
  omega

/-- An odd multiple of `2 ^ -53` is not one half. -/
theorem openUniform_ne_half (index : ℕ) : (openUniform index : ℝ) ≠ 1 / 2 := by
  intro hhalf
  have hcount : 2 * index + 1 = 2 ^ 52 := by
    rw [openUniform] at hhalf
    push_cast at hhalf
    field_simp at hhalf
    exact_mod_cast hhalf
  omega

/-- The number whose logarithm is taken is a multiple of `2 ^ -52`. -/
theorem tail_openUniform (hindex : index < 2 ^ 52) :
    tail (openUniform index : ℝ) = tailCount index / 2 ^ 52 := by
  have hcomplement : ((2 ^ 53 - (2 * index + 1) : ℕ) : ℝ) = 2 ^ 53 - (2 * index + 1) := by
    rw [Nat.cast_sub (by omega)]
    push_cast
    ring
  have hleft : (openUniform index : ℝ) = (2 * index + 1 : ℕ) / 2 ^ 53 := by
    rw [openUniform]
    push_cast
    ring
  have hright : 1 - (openUniform index : ℝ) = (2 ^ 53 - (2 * index + 1) : ℕ) / 2 ^ 53 := by
    rw [hleft, hcomplement]
    push_cast
    ring
  rw [tail_eq_min, hright, hleft, min_div_div_right (by positivity), ← Nat.cast_min, tailCount]
  ring

/-- The number whose logarithm is taken is at least `2 ^ -52`, and below one by at least as much. -/
theorem tail_bounds (hindex : index < 2 ^ 52) :
    1 / 2 ^ 52 ≤ tail (openUniform index : ℝ) ∧ tail (openUniform index : ℝ) ≤ 1 - 1 / 2 ^ 52 := by
  obtain ⟨hlow, hhigh⟩ := tailCount_bounds hindex
  have hlow' : (1 : ℝ) ≤ tailCount index := Nat.one_le_cast.mpr hlow
  have hhigh' : (tailCount index : ℝ) ≤ 2 ^ 52 - 1 := by
    rw [le_sub_iff_add_le]
    exact_mod_cast hhigh
  rw [tail_openUniform hindex, one_sub_div (by positivity)]
  exact ⟨div_le_div_of_nonneg_right hlow' (by positivity), div_le_div_of_nonneg_right hhigh' (by positivity)⟩

/-! ### Uniform doubles -/

/-- One is a double. -/
theorem hasValue_one : HasValue (1 : Float) 1 :=
  hasValue_power (by decide +kernel : _ = Binary.finite false (2 ^ 52) (-52) true)

/-- One half is a double. -/
theorem hasValue_half : HasValue Scalar.half (1 / 2) := by
  have hvalue : HasValue Scalar.half (2 ^ (-53 + 52 : ℤ)) := hasValue_power (by decide +kernel)
  norm_num at hvalue ⊢
  exact hvalue

/-- Two is a double with a full significand. -/
theorem isExactly_two : IsExactly Scalar.two (2 : ℕ) :=
  isExactly_of_isWhole (by decide +kernel)

/-- The upper bits of a word are an index. -/
theorem shiftRight_lt (word : UInt64) : (word >>> 12).toNat < 2 ^ 52 := by
  rw [UInt64.toNat_shiftRight, Nat.shiftRight_eq_div_pow]
  have hword := word.toNat_lt
  change word.toNat / 2 ^ 12 < 2 ^ 52
  omega

/-- The bits of a number between one and two. -/
theorem ofBits_between {fraction : ℕ} (hfraction : fraction < 2 ^ 52) :
    ofBits (0x3ff * 2 ^ 52 + fraction) = .finite false (2 ^ 52 + fraction) (-52) (decide (fraction = 0)) := by
  have hsign : ¬fractionCount * exponentCount ≤ 0x3ff * 2 ^ 52 + fraction := by
    rw [fractionCount, exponentCount]
    omega
  have hbiased : (0x3ff * 2 ^ 52 + fraction) / fractionCount % exponentCount = 0x3ff := by
    rw [fractionCount, exponentCount]
    omega
  have hrest : (0x3ff * 2 ^ 52 + fraction) % fractionCount = fraction := by
    rw [fractionCount]
    omega
  rw [ofBits, hbiased, hrest, decide_eq_false hsign, if_neg (by decide), if_neg (by decide)]
  simp [fractionCount]

/-- The upper bits of a word are the fraction of a number between one and two. -/
theorem hasValue_between {word : UInt64} (hword : (word >>> 12).toNat = index) :
    HasValue (Float.ofBits ((0x3ff0000000000000 : UInt64) ||| (word >>> 12))) (1 + index / 2 ^ 52) := by
  have hindex : index < 2 ^ 52 := hword ▸ shiftRight_lt word
  have hbits : ((0x3ff0000000000000 : UInt64) ||| (word >>> 12)).toNat = 0x3ff * 2 ^ 52 + index := by
    rw [UInt64.toNat_or, hword]
    change (0x3ff * 2 ^ 52) ||| _ = _
    rw [← Nat.shiftLeft_eq, Nat.shiftLeft_add_eq_or_of_lt hindex]
  have hvalue := hasValue_ofBits (by positivity) (hbits ▸ ofBits_between hindex)
  convert hvalue using 1
  push_cast
  norm_num
  ring

/-- The largest double below one. -/
theorem hasValue_belowOne : HasValue (Float.ofBits 0x3fefffffffffffff) (1 - 1 / 2 ^ 53) := by
  have hvalue : HasValue (Float.ofBits 0x3fefffffffffffff) ((2 ^ 53 - 1 : ℕ) * 2 ^ (-53 : ℤ)) :=
    hasValue_ofBits (by norm_num) (by decide +kernel : _ = Binary.finite false (2 ^ 53 - 1) (-53) false)
  convert hvalue using 1
  norm_num

/-- The uniform number of a word is the one with its index. -/
theorem hasValue_uniform {word : UInt64} (hword : (word >>> 12).toNat = index) :
    HasValue (uniform word) (openUniform index) := by
  have hindex : index < 2 ^ 52 := hword ▸ shiftRight_lt word
  have hunits : openUniform index = (2 * index + 1 : ℤ) / 2 ^ 53 := by
    rw [openUniform]
    push_cast
    ring
  have hdifference : 1 + index / 2 ^ 52 - (1 - 1 / 2 ^ 53) = openUniform index := by
    rw [openUniform]
    ring
  exact (hasValue_between hword).sub hasValue_belowOne hdifference
    (hunits ▸ fits_div _ (by omega) (by omega) (by omega))

/-- The number whose logarithm is taken for a uniform double is a multiple of `2 ^ -52`. -/
theorem hasValue_tail (hindex : index < 2 ^ 52) {double : Float} (hdouble : HasValue double (openUniform index)) :
    HasValue (tail double) (tailCount index / 2 ^ 52) := by
  obtain ⟨offset, hoffset⟩ : ∃ offset : ℤ, offset = 2 * index + 1 - 2 ^ 52 := ⟨_, rfl⟩
  have hcount : tailCount index + offset.natAbs = 2 ^ 52 := by
    rw [tailCount]
    omega
  have hcentered : HasValue (double - Scalar.half) (offset / 2 ^ 53) := by
    refine hdouble.sub hasValue_half ?_ (fits_div _ (by omega) (by omega) (by omega))
    rw [openUniform, hoffset]
    push_cast
    ring
  have htwice : HasValue (Scalar.two * Scalar.magnitude (double - Scalar.half)) (offset.natAbs / 2 ^ 52) := by
    refine hasValue_mul isExactly_two hcentered.abs ?_ (fits_div offset.natAbs (by omega) (by omega) (by omega))
    rw [abs_div, abs_of_pos (by positivity : (0 : ℚ) < 2 ^ 53), Nat.cast_natAbs, Int.cast_abs]
    push_cast
    ring
  refine hasValue_one.sub htwice ?_ (fits_div (tailCount index) (by omega) (by omega) (by omega))
  have hcast : (tailCount index : ℚ) + offset.natAbs = 2 ^ 52 := by
    rw [← Nat.cast_add, hcount]
    norm_num
  rw [eq_sub_of_add_eq hcast, sub_div, div_self (by positivity)]

/-! ### Draws -/

/-- The index that the next word of a stream has. -/
def nextIndex (stream : Keystream) : ℕ := (stream.next.1 >>> 12).toNat

/-- Every index is that of a word, and so of a stream. -/
theorem exists_nextIndex (hindex : index < 2 ^ 52) : ∃ stream, nextIndex stream = index := by
  refine ⟨⟨[], 0, [UInt64.ofNat (index * 2 ^ 12)]⟩, ?_⟩
  change (UInt64.ofNat (index * 2 ^ 12) >>> 12).toNat = index
  have hword : index * 2 ^ 12 < UInt64.size := by
    rw [UInt64.size]
    omega
  rw [UInt64.toNat_shiftRight, Nat.shiftRight_eq_div_pow, UInt64.toNat_ofNat_of_lt' hword]
  exact Nat.mul_div_cancel index (by norm_num)

/-- A draw in real arithmetic, from the uniform numbers of the words. -/
noncomputable def realDraw (scale : ℝ) (stream : Keystream) : ℝ × Keystream :=
  drawWith (fun word => (openUniform (word >>> 12).toNat : ℝ)) scale stream

/-- A draw at a scale other than zero takes one word and gives the quantile of its uniform number. -/
theorem drawWith_eq {α : Type} [Analytic α] (uniform : UInt64 → α) {scale : α} (hscale : (scale == 0) = false)
    (stream : Keystream) :
    drawWith uniform scale stream = (laplaceQuantile (uniform stream.next.1) scale, stream.next.2) := by
  rw [drawWith, hscale]
  rfl

/-- A draw in real arithmetic gives the quantile of the uniform number with the next index. -/
theorem realDraw_eq (hscale : 0 < scale) (stream : Keystream) :
    realDraw scale stream = (laplaceQuantile (openUniform (nextIndex stream) : ℝ) scale, stream.next.2) :=
  drawWith_eq _ (beq_eq_false_iff_ne.mpr hscale.ne') stream

/-- The word at a position of a stream. -/
def wordAt (stream : Keystream) (position : ℕ) : UInt64 :=
  ((fun stream => stream.next.2)^[position] stream).next.1

/-- Noise at a scale other than zero is the quantiles of the words of the seed, one after the other. -/
theorem sample_eq_quantiles {scale : Float} (hcheck : checkScale scale = .ok ()) (hscale : (scale == 0) = false)
    (count : ℕ) (seed : UInt64) :
    sample count seed scale = .ok ((List.range count).map fun position =>
      laplaceQuantile (uniform (wordAt (Keystream.ofSeed seed) position)) scale) := by
  have hdraw : draw scale = fun stream => (laplaceQuantile (uniform stream.next.1) scale, stream.next.2) :=
    funext (drawWith_eq uniform hscale)
  have hvalue (position : ℕ) : drawAt scale (Keystream.ofSeed seed) position =
      laplaceQuantile (uniform (wordAt (Keystream.ofSeed seed) position)) scale := by
    rw [drawAt, streamAfter, hdraw, wordAt]
  rw [sample_eq_ok hcheck, firstDraws, List.map_congr_left fun position _ => hvalue position]

/-- For every index and every positive scale, the number whose logarithm is taken is a multiple of `2 ^ -52`
between zero and one, and the doubles of a word with this index are exactly the uniform number and that
multiple. Its logarithm is below zero. A draw from a stream whose next word has the index is therefore not zero.
It has the sign of the distance from one half and is bounded by the scale. A draw for the index from the other
end is its opposite.

Draws of doubles go through the same formula, and so does every number of a sample. -/
theorem draws_bounded_and_symmetric (index : ℕ) (hindex : index < 2 ^ 52) (scale : ℝ) (hscale : 0 < scale) :
    (∃ multiple : ℕ, tail (openUniform index : ℝ) = multiple / 2 ^ 52 ∧
      ∀ word : UInt64, (word >>> 12).toNat = index →
        HasValue (uniform word) (openUniform index) ∧ HasValue (tail (uniform word)) (multiple / 2 ^ 52)) ∧
    1 / 2 ^ 52 ≤ tail (openUniform index : ℝ) ∧ tail (openUniform index : ℝ) ≤ 1 - 1 / 2 ^ 52 ∧
    laplaceQuantile (openUniform index : ℝ) scale =
      -scale * Scalar.sign (openUniform index - 1 / 2 : ℝ) * Real.log (tail (openUniform index : ℝ)) ∧
    Real.log (tail (openUniform index : ℝ)) < 0 ∧
    (∃ stream, nextIndex stream = index) ∧
    (∀ stream, nextIndex stream = index →
      realDraw scale stream = (laplaceQuantile (openUniform index : ℝ) scale, stream.next.2) ∧
      (realDraw scale stream).1 ≠ 0 ∧
      SignType.sign (realDraw scale stream).1 = SignType.sign (openUniform index - 1 / 2 : ℝ) ∧
      |(realDraw scale stream).1| ≤ scale * (52 * Real.log 2) ∧
      ∀ mirrored, nextIndex mirrored = 2 ^ 52 - 1 - index →
        (realDraw scale mirrored).1 = -(realDraw scale stream).1) ∧
    (∀ double : Float, (double == 0) = false → ∀ stream,
      draw double stream = (laplaceQuantile (uniform stream.next.1) double, stream.next.2)) ∧
    ∀ double : Float, (double == 0) = false → checkScale double = .ok () → ∀ count seed,
      sample count seed double = .ok ((List.range count).map fun position =>
        laplaceQuantile (uniform (wordAt (Keystream.ofSeed seed) position)) double) := by
  have htail := tail_openUniform hindex
  have hne := openUniform_ne_half index
  obtain ⟨hlow, hhigh⟩ := tail_bounds hindex
  have hpositive : 0 < tail (openUniform index : ℝ) := hlow.trans_lt' (by positivity)
  have hsign := sign_laplaceQuantile hscale hpositive hne
  have hmirror : ((openUniform (2 ^ 52 - 1 - index) : ℚ) : ℝ) = 1 - openUniform index := by
    rw [openUniform_mirror hindex]
    push_cast
    rfl
  refine ⟨⟨tailCount index, htail, fun word hword => ?_⟩, hlow, hhigh, ?_, log_tail_neg hpositive hne,
    exists_nextIndex hindex, fun stream hstream => ?_, fun double => drawWith_eq uniform,
    fun double hdouble hcheck => sample_eq_quantiles hcheck hdouble⟩
  · have huniform := hasValue_uniform hword
    exact ⟨huniform, hasValue_tail hindex huniform⟩
  · rw [← half_eq]
    rfl
  · have hdraw := realDraw_eq hscale stream
    rw [hstream] at hdraw
    rw [hdraw]
    refine ⟨rfl, ?_, hsign, ?_, fun mirrored hmirrored => ?_⟩
    · rw [← sign_ne_zero, hsign, sign_ne_zero]
      exact sub_ne_zero.mpr hne
    · calc |laplaceQuantile (openUniform index : ℝ) scale|
          ≤ scale * -Real.log (tail (openUniform index : ℝ)) := abs_laplaceQuantile_le hscale hpositive hne
        _ ≤ scale * (52 * Real.log 2) := mul_le_mul_of_nonneg_left (neg_log_le hlow) hscale.le
    · rw [realDraw_eq hscale, hmirrored, hmirror, laplaceQuantile_one_sub]

/-- The least uniform number and the greatest one at scale three. -/
theorem draws_bounded_and_symmetric_least :
    0 < 2 ^ 52 ∧ (0 : ℝ) < 3 ∧ HasValue (uniform 0) (openUniform 0) ∧
      nextIndex ⟨[], 0, [0]⟩ = 0 ∧ nextIndex ⟨[], 0, [0xffffffffffffffff]⟩ = 2 ^ 52 - 1 - 0 ∧
      |(realDraw 3 ⟨[], 0, [0]⟩).1| ≤ 3 * (52 * Real.log 2) ∧
      (realDraw 3 ⟨[], 0, [0xffffffffffffffff]⟩).1 = -(realDraw 3 ⟨[], 0, [0]⟩).1 := by
  obtain ⟨⟨_, -, hwords⟩, -, -, -, -, -, hdraws, -, -⟩ :=
    draws_bounded_and_symmetric 0 (by norm_num) 3 (by norm_num)
  have hgreatest : nextIndex ⟨[], 0, [0xffffffffffffffff]⟩ = 2 ^ 52 - 1 - 0 := by decide
  obtain ⟨-, -, -, hbound, hopposite⟩ := hdraws ⟨[], 0, [0]⟩ rfl
  exact ⟨by norm_num, by norm_num, (hwords 0 rfl).1, rfl, hgreatest, hbound, hopposite _ hgreatest⟩

end PrivateFootage.Noise
