import Mathlib
import PrivateFootage.Proofs.Decimal.Unpacked

/-!
# Arithmetic on doubles rounds to the nearest

Arithmetic finds the exact result up to less than one unit of some significand, and notes where in that
unit the result lies: at its start, below the middle, in the middle or above. Halving the significand
keeps the note true, so that after all halvings it still tells the nearest significand. The result is
therefore the double whose interval the exact result lies in.
-/

namespace PrivateFootage.Binary

open Float.Model Float.Model.UnpackedFloat

variable {significand : ℕ} {exponent : ℤ} {narrowBelow : Bool} {value : ℚ} {accuracy : Accuracy}

/-- Where in a unit a rest lies. -/
def Notes : Accuracy → ℚ → Prop
  | .exact, rest => rest = 0
  | .inexact .lt, rest => 0 < rest ∧ rest < 1 / 2
  | .inexact .eq, rest => rest = 1 / 2
  | .inexact .gt, rest => 1 / 2 < rest ∧ rest < 1

/-- A rest is less than one unit. -/
theorem Notes.bounds {rest : ℚ} (hnotes : Notes accuracy rest) : 0 ≤ rest ∧ rest < 1 := by
  rcases accuracy with _ | (_ | _ | _) <;> simp only [Notes] at hnotes <;> constructor <;> linarith

/-- A number is a significand and a rest of less than one unit, and it is noted where the rest lies. -/
def Located (significand : ℕ) (exponent : ℤ) (accuracy : Accuracy) (value : ℚ) : Prop :=
  ∃ rest, Notes accuracy rest ∧ value = (significand + rest) * 2 ^ exponent

/-- A multiple of a unit is located at itself. -/
theorem located_exact (significand : ℕ) (exponent : ℤ) :
    Located significand exponent .exact (significand * 2 ^ exponent) :=
  ⟨0, rfl, by rw [add_zero]⟩

/-! ### Halving -/

/-- The last of the bits that are noted tells, after a halving, whether there was a rest. -/
theorem stickyBit_shiftRightOne {extended : ExtendedMantissa} {rest : ℚ}
    (hnotes : Notes extended.accuracy rest) : extended.shiftRightOne.stickyBit = true ↔ 0 < rest := by
  obtain ⟨mantissa, roundBit, stickyBit⟩ := extended
  cases roundBit <;> cases stickyBit <;>
    simp only [ExtendedMantissa.accuracy, Notes] at hnotes <;>
    simp [ExtendedMantissa.shiftRightOne] <;> linarith

/-- Halving a significand moves its last bit into the rest, and the note stays true. -/
theorem notes_shiftRightOne {extended : ExtendedMantissa} {rest : ℚ}
    (hnotes : Notes extended.accuracy rest) :
    Notes extended.shiftRightOne.accuracy (((extended.mantissa % 2 : ℕ) + rest) / 2) := by
  have hsticky := stickyBit_shiftRightOne hnotes
  have hround : extended.shiftRightOne.roundBit = (extended.mantissa % 2 != 0) := rfl
  obtain ⟨hnonneg, hlt⟩ := hnotes.bounds
  generalize extended.shiftRightOne = halved at hsticky hround
  obtain ⟨mantissa, roundBit, stickyBit⟩ := halved
  dsimp only at hsticky hround
  subst hround
  cases stickyBit with
  | false =>
    have hzero : rest = 0 := le_antisymm (not_lt.mp fun hpos => Bool.false_ne_true (hsticky.mpr hpos)) hnonneg
    rcases Nat.mod_two_eq_zero_or_one extended.mantissa with hbit | hbit <;>
      simp [hbit, hzero, ExtendedMantissa.accuracy, Notes]
  | true =>
    have hpos := hsticky.mp rfl
    rcases Nat.mod_two_eq_zero_or_one extended.mantissa with hbit | hbit <;> rw [hbit] <;>
      constructor <;> push_cast <;> linarith

/-- A number stays located over one halving. -/
theorem located_shiftRightOne {extended : ExtendedMantissa}
    (hlocated : Located extended.mantissa exponent extended.accuracy value) :
    Located extended.shiftRightOne.mantissa (exponent + 1) extended.shiftRightOne.accuracy value := by
  obtain ⟨rest, hrest, rfl⟩ := hlocated
  refine ⟨_, notes_shiftRightOne hrest, ?_⟩
  have hhalves : (extended.mantissa : ℚ) = 2 * (extended.mantissa / 2 : ℕ) + (extended.mantissa % 2 : ℕ) := by
    exact_mod_cast (Nat.div_add_mod extended.mantissa 2).symm
  rw [zpow_add_one₀ two_ne_zero]
  change _ = (((extended.mantissa / 2 : ℕ) : ℚ) + _) * _
  rw [hhalves]
  ring

/-- A number stays located over any number of halvings. -/
theorem located_shiftRight {extended : ExtendedMantissa} (count : ℕ)
    (hlocated : Located extended.mantissa exponent extended.accuracy value) :
    Located (extended >>> count).mantissa (exponent + count) (extended >>> count).accuracy value := by
  induction count with
  | zero => rwa [Nat.cast_zero, add_zero]
  | succ count ih =>
    rw [Nat.cast_succ, ← add_assoc]
    exact located_shiftRightOne ih

/-- The significand after a number of halvings. -/
theorem mantissa_shiftRight (extended : ExtendedMantissa) (count : ℕ) :
    (extended >>> count).mantissa = extended.mantissa / 2 ^ count := by
  induction count with
  | zero => rw [pow_zero, Nat.div_one]; rfl
  | succ count ih =>
    change (extended >>> count).mantissa / 2 = _
    rw [ih, Nat.div_div_eq_div_mul, pow_succ]

/-! ### The nearest significand -/

/-- A unit is four quarters. -/
theorem unit_eq (exponent : ℤ) : (2 : ℚ) ^ exponent = 4 * 2 ^ (exponent - 2) := by
  rw [zpow_sub₀ two_ne_zero]
  norm_num
  ring

/-- A number that is less than half a unit from a significand, or half a unit from an even one, rounds
to it. -/
theorem rounds_of_near {count : ℚ} (hnonneg : 0 ≤ count)
    (hlower : (significand : ℚ) - 1 / 2 < count ∨
      significand % 2 = 0 ∧ (significand : ℚ) - 1 / 2 = count)
    (hupper : count < significand + 1 / 2 ∨ significand % 2 = 0 ∧ count = significand + 1 / 2) :
    Rounds significand exponent false (count * 2 ^ exponent) := by
  have hquarter : (0 : ℚ) < 2 ^ (exponent - 2) := by positivity
  rw [unit_eq]
  constructor
  · rw [lowQuarters, if_neg Bool.false_ne_true]
    by_cases hzero : significand = 0
    · rw [hzero]
      rcases hnonneg.lt_or_eq with hpos | hnone
      · exact .inl (by rw [Nat.mul_zero, Nat.zero_sub, Nat.cast_zero, zero_mul]; positivity)
      · exact .inr ⟨rfl, by rw [← hnone, Nat.mul_zero, Nat.zero_sub, Nat.cast_zero, zero_mul, zero_mul]⟩
    · have hquarters : ((4 * significand - 2 : ℕ) : ℚ) = 4 * significand - 2 := by
        rw [Nat.cast_sub (by omega)]
        push_cast
        rfl
      rw [hquarters]
      rcases hlower with hlower | ⟨heven, hlower⟩
      · exact .inl (by nlinarith)
      · exact .inr ⟨heven, by rw [← hlower]; ring⟩
  · push_cast
    rcases hupper with hupper | ⟨heven, hupper⟩
    · exact .inl (by nlinarith)
    · exact .inr ⟨heven, by rw [hupper]; ring⟩

/-- A located number rounds to the significand that its note tells. -/
theorem Located.rounds (hlocated : Located significand exponent accuracy value) :
    Rounds (accuracy.roundToNearestEven significand) exponent false value := by
  obtain ⟨rest, hrest, rfl⟩ := hlocated
  obtain ⟨hnonneg, hlt⟩ := hrest.bounds
  have hcount : (0 : ℚ) ≤ significand + rest := by positivity
  rcases accuracy with _ | (_ | _ | _)
  · have hrest : rest = 0 := hrest
    refine rounds_of_near hcount (.inl ?_) (.inl ?_) <;> simp only [Accuracy.roundToNearestEven] <;> linarith
  · have hrest : 0 < rest ∧ rest < 1 / 2 := hrest
    refine rounds_of_near hcount (.inl ?_) (.inl ?_) <;> simp only [Accuracy.roundToNearestEven] <;> linarith
  · have hrest : rest = 1 / 2 := hrest
    simp only [Accuracy.roundToNearestEven]
    rcases Nat.mod_two_eq_zero_or_one significand with hbit | hbit
    · rw [hbit]
      exact rounds_of_near hcount (.inl (by push_cast; linarith)) (.inr ⟨hbit, by push_cast; linarith⟩)
    · rw [hbit]
      exact rounds_of_near hcount (.inr ⟨by omega, by push_cast; linarith⟩) (.inl (by push_cast; linarith))
  · have hrest : 1 / 2 < rest ∧ rest < 1 := hrest
    refine rounds_of_near hcount (.inl ?_) (.inl ?_) <;> simp only [Accuracy.roundToNearestEven] <;>
      push_cast <;> linarith

/-- Rounding leaves a significand or adds one to it. -/
theorem roundToNearestEven_bounds (significand : ℕ) (accuracy : Accuracy) :
    significand ≤ accuracy.roundToNearestEven significand ∧
      accuracy.roundToNearestEven significand ≤ significand + 1 := by
  rcases accuracy with _ | (_ | _ | _) <;> simp only [Accuracy.roundToNearestEven] <;> omega

/-- The gap below a significand does not matter to a number that is not below it. -/
theorem Rounds.of_le (hrounds : Rounds significand exponent false value) (hpositive : 0 < significand)
    (hle : (significand : ℚ) * 2 ^ exponent ≤ value) : Rounds significand exponent narrowBelow value := by
  have hlow : lowQuarters significand narrowBelow < significand * 4 := by
    unfold lowQuarters
    split <;> omega
  have hquarter : (0 : ℚ) < 2 ^ (exponent - 2) := by positivity
  refine ⟨.inl (lt_of_lt_of_le ?_ hle), hrounds.upper⟩
  rw [unit_eq exponent, ← mul_assoc]
  refine mul_lt_mul_of_pos_right ?_ hquarter
  exact_mod_cast hlow

/-- A significand that is one bit too long is half of it with the next exponent. -/
theorem Rounds.carry (hrounds : Rounds (2 ^ 53) exponent false value) :
    Rounds (2 ^ 52) (exponent + 1) true value := by
  have hquarter : (0 : ℚ) < 2 ^ (exponent - 2) := by positivity
  have hnext : (2 : ℚ) ^ (exponent + 1 - 2) = 2 * 2 ^ (exponent - 2) := by
    rw [add_sub_right_comm, zpow_add_one₀ two_ne_zero, mul_comm]
  obtain ⟨hlower, hupper⟩ := hrounds
  rw [lowQuarters, if_neg Bool.false_ne_true] at hlower
  constructor
  · rw [lowQuarters, if_pos rfl, hnext]
    norm_num at hlower ⊢
    rcases hlower with hlower | hlower
    · exact .inl (by linarith)
    · exact .inr (by linarith)
  · rw [hnext]
    norm_num at hupper ⊢
    rcases hupper with hupper | hupper
    · exact .inl (by linarith)
    · exact .inl (by linarith)

/-! ### Shifting to the exponent of a double -/

/-- The exponent of a double for a leading bit in a given place. -/
theorem targetExponent_eq (place : ℤ) :
    Format.binary64.targetExponent place = max (place - 53) (-1074) := rfl

/-- A shift to the exponent of a double is a number of halvings. -/
theorem shiftToTargetExponent_eq {count : ℕ}
    (hcount : (max (significand.log2 + 1 + exponent - 53) (-1074) - exponent).toNat = count) :
    shiftToTargetExponent .binary64 significand exponent accuracy =
      (ExtendedMantissa.ofMantissaAndAccuracy significand accuracy >>> count, exponent + count) := by
  subst hcount
  rfl

/-- A note is kept with the bits that it is put into. -/
theorem ofMantissaAndAccuracy_eq (significand : ℕ) (accuracy : Accuracy) :
    (ExtendedMantissa.ofMantissaAndAccuracy significand accuracy).mantissa = significand ∧
      (ExtendedMantissa.ofMantissaAndAccuracy significand accuracy).accuracy = accuracy := by
  rcases accuracy with _ | (_ | _ | _) <;> exact ⟨rfl, rfl⟩

/-- What a shift to the exponent of a double comes to: the number is located there, at a significand that
is not too long, and that is full unless the exponent is the least one. -/
structure Shifted (extended : ExtendedMantissa) (exponent : ℤ) (value : ℚ) : Prop where
  located : Located extended.mantissa exponent extended.accuracy value
  mantissa_lt : extended.mantissa < 2 ^ 53
  le_exponent : -1074 ≤ exponent
  full : exponent ≠ -1074 → 2 ^ 52 ≤ extended.mantissa

/-- A significand whose exponent is not above the one of a double is shifted to it. -/
theorem Located.shifted (hlocated : Located significand exponent accuracy value)
    (hexponent : exponent ≤ Format.binary64.targetExponent (totalExponent significand exponent)) :
    Shifted (shiftToTargetExponent .binary64 significand exponent accuracy).1
      (shiftToTargetExponent .binary64 significand exponent accuracy).2 value := by
  obtain ⟨hmantissa, haccuracy⟩ := ofMantissaAndAccuracy_eq significand accuracy
  obtain ⟨count, hcount⟩ := Int.le.dest hexponent
  rw [targetExponent_eq, totalExponent] at hcount
  rw [shiftToTargetExponent_eq (show _ = count by omega)]
  refine ⟨?_, ?_, by omega, fun hleast => ?_⟩
  · apply located_shiftRight
    rwa [hmantissa, haccuracy]
  · rw [mantissa_shiftRight, hmantissa, Nat.div_lt_iff_lt_mul (by positivity), ← pow_add]
    exact Nat.lt_log2_self.trans_le (Nat.pow_le_pow_right two_pos (by omega))
  · have hlog : significand.log2 = 52 + count := by omega
    have hne : significand ≠ 0 := by
      rintro rfl
      rw [Nat.log2_zero] at hlog
      omega
    rw [mantissa_shiftRight, hmantissa, Nat.le_div_iff_mul_le (by positivity), ← pow_add, ← hlog]
    exact Nat.log2_self_le hne

/-- A significand that is not too long stays as it is. -/
theorem shiftToTargetExponent_of_lt (hsmall : significand < 2 ^ 53) (hlow : -1074 ≤ exponent) :
    shiftToTargetExponent .binary64 significand exponent .exact = (⟨significand, false, false⟩, exponent) := by
  have hlog : significand.log2 ≤ 52 := by
    by_cases hzero : significand = 0
    · rw [hzero, Nat.log2_zero]
      omega
    · exact Nat.le_of_lt_succ ((Nat.log2_lt hzero).mpr hsmall)
  rw [shiftToTargetExponent_eq (show _ = 0 by omega), Nat.cast_zero, add_zero]
  rfl

/-- A significand that is one bit too long loses a zero. -/
theorem shiftToTargetExponent_of_carry (hlow : -1074 ≤ exponent) :
    shiftToTargetExponent .binary64 (2 ^ 53) exponent .exact = (⟨2 ^ 52, false, false⟩, exponent + 1) := by
  rw [shiftToTargetExponent_eq (show _ = 1 by rw [Nat.log2_two_pow]; omega)]
  rfl

/-! ### The result -/

/-- What a number rounds to if exponents have no end: a significand that is not too long, and that is full
unless the exponent is the least one. -/
structure Nearest (significand : ℕ) (exponent : ℤ) (value : ℚ) : Prop where
  rounds : Rounds significand exponent (decide (significand = 2 ^ 52 ∧ exponent ≠ -1074)) value
  significand_lt : significand < 2 ^ 53
  le_exponent : -1074 ≤ exponent
  full : exponent ≠ -1074 → 2 ^ 52 ≤ significand

section Ends

variable {significand' : ℕ} {exponent' : ℤ} {value' : ℚ}

/-- What a number rounds to is the double in canonical form, if its exponent is one of a double. -/
theorem Nearest.isCanonical (hnearest : Nearest significand exponent value) (hhigh : exponent ≤ 971) :
    IsCanonical significand exponent (decide (significand = 2 ^ 52 ∧ exponent ≠ -1074)) :=
  ⟨⟨hnearest.significand_lt, hnearest.le_exponent, hhigh⟩, hnearest.full, decide_eq_true_iff⟩

/-- The lower end of the interval of a full significand. -/
theorem Nearest.le_lowQuarters (hnearest : Nearest significand exponent value) (hleast : exponent ≠ -1074) :
    2 ^ 54 - 1 ≤ lowQuarters significand (decide (significand = 2 ^ 52 ∧ exponent ≠ -1074)) :=
  le_lowQuarters_of_full (hnearest.full hleast) fun heq => decide_eq_true ⟨heq, hleast⟩

/-- A larger number rounds to nothing smaller. -/
theorem Nearest.le_of_le (hnearest : Nearest significand exponent value)
    (hnearest' : Nearest significand' exponent' value') (hvalues : value ≤ value') :
    exponent < exponent' ∨ exponent = exponent' ∧ significand ≤ significand' := by
  have hlow := hnearest'.le_exponent
  rcases lt_trichotomy exponent exponent' with hlt | rfl | hgt
  · exact .inl hlt
  · refine .inr ⟨rfl, not_lt.mp fun hlt => ?_⟩
    exact hnearest'.rounds.false_of_lt_significand hnearest.rounds hvalues hlt
  · have hend := hnearest.le_lowQuarters (by omega)
    exact (hnearest'.rounds.false_of_lt_exponent hnearest.rounds hvalues hnearest'.significand_lt hend hgt).elim

/-- What a number rounds to is the double that it rounds to, if there is one. -/
theorem Rounds.eq_of_nearest (hrounds : Rounds significand exponent narrowBelow value)
    (hcanonical : IsCanonical significand exponent narrowBelow)
    (hnearest : Nearest significand' exponent' value) :
    significand' = significand ∧ exponent' = exponent := by
  -- Above the last exponent, a full significand lies beyond the intervals of all doubles.
  have hhigh : exponent' ≤ 971 := by
    by_contra hover
    have hend := hnearest.le_lowQuarters (by omega)
    have hexponent := hcanonical.exponent_le
    exact hrounds.false_of_lt_exponent hnearest.rounds le_rfl hcanonical.significand_lt hend (by omega)
  exact hnearest.rounds.unique hrounds (hnearest.isCanonical hhigh) hcanonical

end Ends

/-- A significand and an exponent as arithmetic takes them: zero is told apart. -/
def ofParts (sign : Sign) (significand : ℕ) (exponent : ℤ) : UnpackedFloat :=
  if hzero : significand = 0 then .zero sign
  else .finite sign significand exponent (Nat.pos_of_ne_zero hzero)

/-- What a number rounds to is taken as the double that it rounds to, if there is one. -/
theorem Nearest.ofParts_eq {significand' : ℕ} {exponent' : ℤ} (hnearest : Nearest significand' exponent' value)
    (hrounds : Rounds significand exponent narrowBelow value)
    (hcanonical : IsCanonical significand exponent narrowBelow) (hpositive : 0 < significand) (sign : Sign) :
    ofParts sign significand' exponent' = .finite sign significand exponent hpositive := by
  obtain ⟨rfl, rfl⟩ := hrounds.eq_of_nearest hcanonical hnearest
  exact dif_neg hpositive.ne'

/-- The result of arithmetic is what the exact result rounds to, however large it is. -/
theorem exists_nearest {mantissa : ℕ} {power : ℤ} (hlocated : Located mantissa power accuracy value)
    (hpower : power ≤ Format.binary64.targetExponent (totalExponent mantissa power)) (sign : Sign) :
    ∃ significand exponent, Nearest significand exponent value ∧
      roundWithAccuracy .binary64 sign mantissa power accuracy = ofParts sign significand exponent := by
  have hshifted := hlocated.shifted hpower
  unfold roundWithAccuracy
  generalize shiftToTargetExponent .binary64 mantissa power accuracy = first at hshifted ⊢
  obtain ⟨extended, place⟩ := first
  dsimp only at hshifted ⊢
  obtain ⟨hat, hlt, hlow, hfull⟩ := hshifted
  have hnearest := hat.rounds
  obtain ⟨hle, hge⟩ := roundToNearestEven_bounds extended.mantissa extended.accuracy
  change Rounds extended.roundedMantissa place false value at hnearest
  change extended.mantissa ≤ extended.roundedMantissa at hle
  change extended.roundedMantissa ≤ extended.mantissa + 1 at hge
  generalize extended.roundedMantissa = rounded at *
  -- The second shift does nothing, unless rounding made the significand one bit too long.
  rcases (show rounded ≤ 2 ^ 53 by omega).lt_or_eq with hsmall | rfl
  · have hgap : Rounds rounded place (decide (rounded = 2 ^ 52 ∧ place ≠ -1074)) value := by
      by_cases hleast : rounded = 2 ^ 52 ∧ place ≠ -1074
      · -- The number is not below the least full significand, which it was shifted to.
        obtain ⟨rest, hrest, rfl⟩ := hat
        have hsame : rounded ≤ extended.mantissa := hleast.1.le.trans (hfull hleast.2)
        refine hnearest.of_le (by omega) (mul_le_mul_of_nonneg_right ?_ (by positivity))
        have hcast : (rounded : ℚ) ≤ extended.mantissa := Nat.cast_le.mpr hsame
        linarith [hrest.bounds.1]
      · rwa [decide_eq_false hleast]
    refine ⟨rounded, place, ⟨hgap, hsmall, hlow, fun hleast => (hfull hleast).trans hle⟩, ?_⟩
    rw [shiftToTargetExponent_of_lt hsmall hlow]
    rfl
  · have hgap : Rounds (2 ^ 52) (place + 1) (decide (2 ^ 52 = 2 ^ 52 ∧ place + 1 ≠ -1074)) value := by
      rw [decide_eq_true ⟨rfl, by omega⟩]
      exact hnearest.carry
    refine ⟨2 ^ 52, place + 1, ⟨hgap, by norm_num, by omega, fun _ => le_rfl⟩, ?_⟩
    rw [shiftToTargetExponent_of_carry hlow]
    rfl

/-- The result of arithmetic is the double that the exact result rounds to. -/
theorem roundWithAccuracy_eq {mantissa : ℕ} {power : ℤ} (hlocated : Located mantissa power accuracy value)
    (hpower : power ≤ Format.binary64.targetExponent (totalExponent mantissa power))
    (hrounds : Rounds significand exponent narrowBelow value)
    (hcanonical : IsCanonical significand exponent narrowBelow) (hpositive : 0 < significand)
    (sign : Sign) :
    roundWithAccuracy .binary64 sign mantissa power accuracy =
      .finite sign significand exponent hpositive := by
  obtain ⟨significand', exponent', hnearest, hresult⟩ := exists_nearest hlocated hpower sign
  rw [hresult]
  exact hnearest.ofParts_eq hrounds hcanonical hpositive sign

end PrivateFootage.Binary
