import Mathlib
import PrivateFootage.Proofs.Decimal.Order

/-!
# Results that doubles hold exactly

The difference of two doubles is rounded like any other result. It is exact whenever it is a number that a
double can hold: a whole number of up to 53 bits times a power of two. So is the product with a full
significand. Changing the sign is always exact.
-/

namespace PrivateFootage.Binary

open Float.Model Float.Model.UnpackedFloat

variable {significand mantissa : ℕ} {exponent power : ℤ} {sign : Sign} {double first second : Float}
  {magnitude value value' result : ℚ}

/-- The number with a sign and a magnitude. -/
def signed : Sign → ℚ → ℚ
  | .negative, magnitude => -magnitude
  | .positive, magnitude => magnitude

/-- A double is exactly a number other than zero. -/
def HasValue (double : Float) (value : ℚ) : Prop :=
  ∃ sign significand exponent hpositive,
    double.toModel.unpack = .finite sign significand exponent hpositive ∧
      signed sign (significand * 2 ^ exponent) = value

/-- A magnitude other than zero that a double can have. -/
def Fits (magnitude : ℚ) : Prop :=
  ∃ count power, 0 < count ∧ InRange count power ∧ (count : ℚ) * 2 ^ power = magnitude

/-- The magnitude of a number is the one that it is given. -/
theorem abs_signed (sign : Sign) (hmagnitude : 0 ≤ magnitude) : |signed sign magnitude| = magnitude := by
  cases sign with
  | negative => rw [signed, abs_neg, abs_of_nonneg hmagnitude]
  | positive => rw [signed, abs_of_nonneg hmagnitude]

/-- Changing the sign of a number is changing the sign that it is given. -/
theorem signed_neg (sign : Sign) (magnitude : ℚ) : signed (-sign) magnitude = -signed sign magnitude := by
  cases sign with
  | negative => exact (neg_neg magnitude).symm
  | positive => rfl

/-- A binary fraction of up to 53 bits fits into a double. -/
theorem fits_div (units : ℤ) {places : ℕ} (hne : units ≠ 0) (hsmall : units.natAbs < 2 ^ 53)
    (hplaces : places ≤ 1074) : Fits |(units / 2 ^ places : ℚ)| := by
  refine ⟨units.natAbs, -places, Int.natAbs_pos.mpr hne, ⟨hsmall, by omega, by omega⟩, ?_⟩
  rw [abs_div, abs_of_pos (by positivity : (0 : ℚ) < 2 ^ places), zpow_neg, zpow_natCast, Nat.cast_natAbs,
    Int.cast_abs, div_eq_mul_inv]

/-! ### Rounding what fits -/

/-- What a double can hold has a canonical form. -/
theorem Fits.exists_isCanonical (hfits : Fits magnitude) :
    ∃ significand exponent,
      IsCanonical significand exponent (decide (significand = 2 ^ 52 ∧ exponent ≠ -1074)) ∧
        0 < significand ∧ (significand : ℚ) * 2 ^ exponent = magnitude := by
  obtain ⟨count, power, hpositive, ⟨hsmall, hlow, hhigh⟩, rfl⟩ := hfits
  have hlog : count.log2 ≤ 52 := Nat.le_of_lt_succ ((Nat.log2_lt hpositive.ne').mpr hsmall)
  -- The count is shifted up until it is full or the exponent is the least one.
  obtain ⟨steps, hsteps⟩ : ∃ steps, steps = min (52 - count.log2) (power + 1074).toNat := ⟨_, rfl⟩
  have hvalue : ((count * 2 ^ steps : ℕ) : ℚ) * 2 ^ (power - steps) = count * 2 ^ power := by
    rw [zpow_sub₀ two_ne_zero, zpow_natCast]
    push_cast
    field_simp
  refine ⟨count * 2 ^ steps, power - steps, ⟨⟨?_, by omega, by omega⟩, fun hleast => ?_, decide_eq_true_iff⟩,
    by positivity, hvalue⟩
  · calc count * 2 ^ steps < 2 ^ (count.log2 + 1) * 2 ^ steps :=
        Nat.mul_lt_mul_of_pos_right Nat.lt_log2_self (by positivity)
      _ = 2 ^ (count.log2 + 1 + steps) := (pow_add ..).symm
      _ ≤ 2 ^ 53 := Nat.pow_le_pow_right two_pos (by omega)
  · have hfull : steps = 52 - count.log2 := by omega
    calc 2 ^ 52 = 2 ^ count.log2 * 2 ^ steps := by rw [← pow_add, hfull, Nat.add_sub_cancel' hlog]
      _ ≤ count * 2 ^ steps := Nat.mul_le_mul_right _ (Nat.log2_self_le hpositive.ne')

/-- Rounding leaves what a double can hold as it is. -/
theorem hasValue_roundWithAccuracy (hfits : Fits (mantissa * 2 ^ power))
    (hpower : power ≤ Format.binary64.targetExponent (totalExponent mantissa power))
    (hdouble : double.toModel = Float.Model.pack (roundWithAccuracy .binary64 sign mantissa power .exact)) :
    HasValue double (signed sign (mantissa * 2 ^ power)) := by
  obtain ⟨significand, exponent, hcanonical, hpositive, hvalue⟩ := hfits.exists_isCanonical
  have hround := roundWithAccuracy_eq (located_exact mantissa power) hpower (hvalue ▸ rounds_self hpositive)
    hcanonical hpositive sign
  refine ⟨sign, significand, exponent, hpositive, ?_, by rw [hvalue]⟩
  rw [hdouble, hround]
  exact unpack_pack hcanonical sign hpositive

/-- Lowering the exponent leaves the number as it is. -/
theorem shiftLeft_mul_two_zpow (mantissa count : ℕ) (power : ℤ) :
    ((mantissa <<< count : ℕ) : ℚ) * 2 ^ (power - count) = mantissa * 2 ^ power := by
  rw [Nat.shiftLeft_eq, zpow_sub₀ two_ne_zero, zpow_natCast]
  push_cast
  field_simp

/-- Shifting a number up moves its leading bit along. -/
theorem log2_shiftLeft (hpositive : 0 < mantissa) (count : ℕ) :
    (mantissa <<< count).log2 = mantissa.log2 + count := by
  have hshifted : 0 < mantissa <<< count := by
    rw [Nat.shiftLeft_eq]
    positivity
  rw [Nat.log2_eq_iff hshifted.ne', Nat.shiftLeft_eq, pow_add, add_right_comm, pow_add]
  exact ⟨Nat.mul_le_mul_right _ (Nat.log2_self_le hpositive.ne'),
    Nat.mul_lt_mul_of_pos_right Nat.lt_log2_self (by positivity)⟩

/-- Rounding leaves what a double can hold as it is, whatever its exponent. -/
theorem hasValue_round (hfits : Fits (mantissa * 2 ^ power))
    (hdouble : double.toModel = Float.Model.pack (UnpackedFloat.round .binary64 sign mantissa power)) :
    HasValue double (signed sign (mantissa * 2 ^ power)) := by
  have hpositive : 0 < mantissa := by
    obtain ⟨count, power', hcount, -, hvalue⟩ := hfits
    have hmagnitude : (0 : ℚ) < mantissa * 2 ^ power := hvalue ▸ by positivity
    exact Nat.cast_pos.mp (pos_of_mul_pos_left hmagnitude (by positivity))
  obtain ⟨count, hcount⟩ : ∃ count,
      (power - Format.binary64.targetExponent (totalExponent mantissa power)).toNat = count := ⟨_, rfl⟩
  have hlog := log2_shiftLeft hpositive count
  rw [← shiftLeft_mul_two_zpow mantissa count power] at hfits ⊢
  refine hasValue_roundWithAccuracy hfits ?_ ?_
  · rw [targetExponent_eq, totalExponent] at hcount ⊢
    rw [hlog]
    omega
  · rw [hdouble, UnpackedFloat.round, decreaseExponent, hcount]

/-- A number with a sign in whole units. -/
theorem cast_apply (sign : Sign) (mantissa : ℕ) (power : ℤ) :
    ((sign.apply mantissa : ℤ) : ℚ) * 2 ^ power = signed sign (mantissa * 2 ^ power) := by
  cases sign with
  | negative =>
    change ((-(mantissa : ℤ) : ℤ) : ℚ) * _ = -(_ * _)
    push_cast
    ring
  | positive => rfl

/-- Whole units are rounded as their sign and their magnitude. -/
theorem normalize_apply (hpositive : 0 < mantissa) (sign zeroSign : Sign) (power : ℤ) :
    UnpackedFloat.normalize .binary64 (sign.apply mantissa) power zeroSign =
      UnpackedFloat.round .binary64 sign mantissa power := by
  cases sign with
  | negative =>
    have hsign : Sign.negative.apply (mantissa : ℤ) = -mantissa := rfl
    rw [UnpackedFloat.normalize, hsign, Int.compare_eq_lt.mpr (by omega)]
    dsimp only
    rw [neg_neg, Int.toNat_natCast]
  | positive =>
    have hsign : Sign.positive.apply (mantissa : ℤ) = mantissa := rfl
    rw [UnpackedFloat.normalize, hsign, Int.compare_eq_gt.mpr (by omega)]
    dsimp only
    rw [Int.toNat_natCast]

/-- Whole units are rounded to themselves if a double can hold them. -/
theorem hasValue_normalize {units : ℤ} (hfits : Fits |units * 2 ^ power|)
    (hdouble : double.toModel = Float.Model.pack (UnpackedFloat.normalize .binary64 units power .positive)) :
    HasValue double (units * 2 ^ power) := by
  have hne : units ≠ 0 := by
    rintro rfl
    obtain ⟨count, power', hcount, -, hvalue⟩ := hfits
    have hmagnitude : (0 : ℚ) < count * 2 ^ power' := by positivity
    simp [hvalue] at hmagnitude
  obtain ⟨sign, hsign⟩ : ∃ sign : Sign, units = sign.apply units.natAbs := by
    rcases Int.natAbs_eq units with h | h
    · exact ⟨.positive, h⟩
    · exact ⟨.negative, h⟩
  have hmagnitude : (0 : ℚ) ≤ units.natAbs * 2 ^ power := by positivity
  rw [hsign, normalize_apply (Int.natAbs_pos.mpr hne)] at hdouble
  rw [hsign, cast_apply] at hfits ⊢
  rw [abs_signed sign hmagnitude] at hfits
  exact hasValue_round hfits hdouble

/-- The difference of two doubles is exact if a double can hold it. -/
theorem HasValue.sub (hfirst : HasValue first value) (hsecond : HasValue second value')
    (hresult : value - value' = result) (hfits : Fits |result|) : HasValue (first - second) result := by
  subst hresult
  obtain ⟨sign, significand, exponent, hpositive, hunpack, rfl⟩ := hfirst
  obtain ⟨sign', significand', exponent', hpositive', hunpack', rfl⟩ := hsecond
  obtain ⟨count, hcount⟩ : ∃ count, (exponent - min exponent exponent').toNat = count := ⟨_, rfl⟩
  obtain ⟨count', hcount'⟩ : ∃ count, (exponent' - min exponent exponent').toNat = count := ⟨_, rfl⟩
  have hunits :
      ((sign.apply (significand <<< count : ℕ) - sign'.apply (significand' <<< count' : ℕ) : ℤ) : ℚ) *
          2 ^ min exponent exponent' =
        signed sign (significand * 2 ^ exponent) - signed sign' (significand' * 2 ^ exponent') := by
    have hleast : exponent - count = min exponent exponent' := by omega
    have hleast' : exponent' - count' = min exponent exponent' := by omega
    rw [← shiftLeft_mul_two_zpow significand count exponent, ← shiftLeft_mul_two_zpow significand' count' exponent',
      hleast, hleast', ← cast_apply, ← cast_apply, ← sub_mul, Int.cast_sub]
  rw [← hunits] at hfits ⊢
  apply hasValue_normalize hfits
  change Float.Model.pack (UnpackedFloat.sub .binary64 first.toModel.unpack second.toModel.unpack) = _
  rw [hunpack, hunpack', UnpackedFloat.sub, decreaseExponent, decreaseExponent, hcount, hcount']

/-! ### Products, signs and bits -/

/-- The product of a full significand and a double is exact if a double can hold it. -/
theorem hasValue_mul (hfirst : IsExactly first value) (hsecond : HasValue second value')
    (hresult : value * value' = result) (hfits : Fits |result|) : HasValue (first * second) result := by
  subst hresult
  obtain ⟨significand, exponent, hpositive, hunpack, hfull, rfl⟩ := hfirst
  obtain ⟨sign, significand', exponent', hpositive', hunpack', rfl⟩ := hsecond
  have hproduct : ((significand * significand' : ℕ) : ℚ) * 2 ^ (exponent + exponent') =
      significand * 2 ^ exponent * (significand' * 2 ^ exponent') := by
    rw [zpow_add₀ two_ne_zero]
    push_cast
    ring
  have hsign : (significand : ℚ) * 2 ^ exponent * signed sign (significand' * 2 ^ exponent') =
      signed sign ((significand * significand' : ℕ) * 2 ^ (exponent + exponent')) := by
    rw [hproduct]
    cases sign with
    | negative => exact mul_neg _ _
    | positive => rfl
  have hlong : 52 ≤ (significand * significand').log2 :=
    (Nat.le_log2 (by positivity)).mpr (hfull.trans (Nat.le_mul_of_pos_right _ hpositive'))
  rw [hsign] at hfits ⊢
  rw [abs_signed sign (by positivity)] at hfits
  refine hasValue_roundWithAccuracy hfits ?_ ?_
  · rw [targetExponent_eq, totalExponent]
    omega
  · change Float.Model.pack (UnpackedFloat.mul .binary64 first.toModel.unpack second.toModel.unpack) = _
    rw [hunpack, hunpack', UnpackedFloat.mul]
    cases sign <;> rfl

/-- A double other than zero has a canonical significand and exponent. -/
theorem exists_isCanonical_of_unpack {hpositive : 0 < significand}
    (hunpack : double.toModel.unpack = .finite sign significand exponent hpositive) :
    ∃ narrowBelow, IsCanonical significand exponent narrowBelow := by
  rw [unpack_toModel] at hunpack
  have hcanonical := canonical_ofFloat double
  cases hdouble : ofFloat double with
  | finite negative significand' exponent' narrowBelow =>
    rw [hdouble] at hunpack hcanonical
    by_cases hzero : significand' = 0
    · rw [unpacked, dif_pos hzero] at hunpack
      cases hunpack
    · rw [unpacked, dif_neg hzero] at hunpack
      injection hunpack with _ hsignificand hexponent
      subst hsignificand hexponent
      exact ⟨narrowBelow, hcanonical⟩
  | infinite negative => rw [hdouble, unpacked] at hunpack; cases hunpack
  | notANumber => rw [hdouble, unpacked] at hunpack; cases hunpack

/-- Changing the sign of a double is exact. -/
theorem HasValue.neg (hdouble : HasValue double value) : HasValue (-double) (-value) := by
  obtain ⟨sign, significand, exponent, hpositive, hunpack, rfl⟩ := hdouble
  obtain ⟨narrowBelow, hcanonical⟩ := exists_isCanonical_of_unpack hunpack
  refine ⟨-sign, significand, exponent, hpositive, ?_, signed_neg sign _⟩
  change (Float.Model.pack double.toModel.unpack.neg).unpack = _
  rw [hunpack]
  exact unpack_pack hcanonical (-sign) hpositive

/-- A double is below zero if its value is. -/
theorem HasValue.lt_zero_iff (hdouble : HasValue double value) : double < 0 ↔ value < 0 := by
  obtain ⟨sign, significand, exponent, hpositive, hunpack, rfl⟩ := hdouble
  have hmagnitude : (0 : ℚ) < significand * 2 ^ exponent := by positivity
  have hzero : placeOf 0 = some (toLex (0, toLex (0, 0))) := placeOf_zero
  rw [lt_iff_placeOf, hzero, placeOf, hunpack]
  cases sign with
  | negative => simp [orderKey, signed, hmagnitude, Prod.Lex.toLex_lt_toLex]
  | positive => simp [orderKey, signed, hmagnitude.le, Prod.Lex.toLex_lt_toLex]

/-- The magnitude of a double is exact. -/
theorem HasValue.abs (hdouble : HasValue double value) :
    HasValue (Scalar.magnitude double) |value| := by
  rw [Scalar.magnitude]
  split_ifs with hneg
  · rw [abs_of_neg (hdouble.lt_zero_iff.mp hneg)]
    exact hdouble.neg
  · rw [abs_of_nonneg (not_lt.mp (hdouble.lt_zero_iff.not.mp hneg))]
    exact hdouble

/-- A double that is a positive binary fraction has its value. -/
theorem hasValue_of_ofFloat {narrowBelow : Bool} (hpositive : 0 < significand)
    (hdouble : ofFloat double = .finite false significand exponent narrowBelow) :
    HasValue double (significand * 2 ^ exponent) := by
  refine ⟨.positive, significand, exponent, hpositive, ?_, rfl⟩
  rw [unpack_toModel, hdouble, unpacked, dif_neg hpositive.ne']
  rfl

/-- A double with the least full significand is a power of two. -/
theorem hasValue_power
    (hdouble : ofFloat double = .finite false (2 ^ 52) exponent true) : HasValue double (2 ^ (exponent + 52)) := by
  have hvalue := hasValue_of_ofFloat (by norm_num) hdouble
  rwa [Nat.cast_pow, Nat.cast_ofNat, ← zpow_natCast, ← zpow_add₀ two_ne_zero, add_comm] at hvalue

/-- Bits that stand for a positive binary fraction make a double with its value. -/
theorem hasValue_ofBits {bits : UInt64} {narrowBelow : Bool} (hpositive : 0 < significand)
    (hbits : ofBits bits.toNat = .finite false significand exponent narrowBelow) :
    HasValue (Float.ofBits bits) (significand * 2 ^ exponent) := by
  obtain ⟨hcanonical, -⟩ := ofBits_eq_finite bits.toNat_lt hbits
  refine ⟨.positive, significand, exponent, hpositive, ?_, rfl⟩
  change (Float.Model.pack (UnpackedFloat.unpack .binary64 bits.toBitVec)).unpack = _
  rw [unpack_eq, UInt64.toNat_toBitVec, hbits, unpacked, dif_neg hpositive.ne']
  exact unpack_pack hcanonical .positive hpositive

end PrivateFootage.Binary
