import Mathlib
import PrivateFootage.Proofs.Decimal.Arithmetic

/-!
# The double nearest to a decimal

A decimal is turned into the double that it rounds to. Short ones are quotients or products of two doubles
that are exact; for all others the exact quotient or product of whole numbers is rounded. Decimals that lie
far outside the range of doubles are settled without arithmetic, and no decimal that rounds to a double other
than zero is among them.
-/

namespace PrivateFootage.Binary

open Float.Model Float.Model.UnpackedFloat

variable {significand : ℕ} {exponent : ℤ} {narrowBelow : Bool} {value : ℚ} {digits : ℕ} {power : ℤ}

/-- The quotient of two exact doubles is the double that the exact quotient rounds to. -/
theorem unpack_div {first second : Float} {dividend divisor : ℚ} (hfirst : IsExactly first dividend)
    (hsecond : IsExactly second divisor)
    (hrounds : Rounds significand exponent narrowBelow (dividend / divisor))
    (hcanonical : IsCanonical significand exponent narrowBelow) (hpositive : 0 < significand) :
    (first / second).toModel.unpack = .finite .positive significand exponent hpositive := by
  obtain ⟨_, _, hdividend, hunpack, -, rfl⟩ := hfirst
  obtain ⟨_, _, hdivisor, hunpack', -, rfl⟩ := hsecond
  change (Float.Model.pack (UnpackedFloat.div .binary64 first.toModel.unpack second.toModel.unpack)).unpack = _
  obtain ⟨_, _, hnearest, hquotient⟩ := exists_nearest_div hdividend hdivisor
  rw [hunpack, hunpack', hquotient, hnearest.ofParts_eq hrounds hcanonical hpositive,
    unpack_pack hcanonical .positive hpositive]

/-- The product of two exact doubles is the double that the exact product rounds to. -/
theorem unpack_mul {first second : Float} {factor factor' : ℚ} (hfirst : IsExactly first factor)
    (hsecond : IsExactly second factor')
    (hrounds : Rounds significand exponent narrowBelow (factor * factor'))
    (hcanonical : IsCanonical significand exponent narrowBelow) (hpositive : 0 < significand) :
    (first * second).toModel.unpack = .finite .positive significand exponent hpositive := by
  obtain ⟨_, _, hfactor, hunpack, hfull, rfl⟩ := hfirst
  obtain ⟨_, _, hfactor', hunpack', -, rfl⟩ := hsecond
  change (Float.Model.pack (UnpackedFloat.mul .binary64 first.toModel.unpack second.toModel.unpack)).unpack = _
  obtain ⟨_, _, hnearest, hproduct⟩ := exists_nearest_mul hfactor hfactor' hfull
  rw [hunpack, hunpack', hproduct, hnearest.ofParts_eq hrounds hcanonical hpositive,
    unpack_pack hcanonical .positive hpositive]

/-- A power of ten that is not below one is a whole number. -/
theorem ten_zpow_of_nonneg (hpower : 0 ≤ power) : (10 : ℚ) ^ power = 10 ^ power.natAbs := by
  obtain ⟨count, rfl⟩ := Int.eq_ofNat_of_zero_le hpower
  rw [zpow_natCast, Int.natAbs_natCast]

/-- A power of ten below one is the inverse of a whole number. -/
theorem ten_zpow_of_neg (hpower : power < 0) : (10 : ℚ) ^ power = (10 ^ power.natAbs)⁻¹ := by
  rw [← Int.natAbs_neg, ← ten_zpow_of_nonneg (by omega), zpow_neg, inv_inv]

/-- Digits times a power of ten are rounded exactly, unless the power is so large or so small that the
result is settled without arithmetic. -/
theorem exists_nearest_ofScientific (hdigits : 0 < digits) (hhigh : power ≤ 2048)
    (hlow : -(2048 + digits.log2) ≤ power) :
    ∃ significand exponent, Nearest significand exponent (digits * 10 ^ power) ∧
      UnpackedFloat.ofScientific .binary64 digits power = ofParts .positive significand exponent := by
  have htop : ¬power > 2 ^ Format.binary64.exponentBits := not_lt.mpr hhigh
  have hbottom : ¬power < -((2 ^ Format.binary64.exponentBits : ℤ) + digits.log2) := not_lt.mpr hlow
  unfold UnpackedFloat.ofScientific
  rw [dif_neg hdigits.ne', if_neg htop, if_neg hbottom]
  split_ifs with hsign
  · have hfull : 2 ^ 52 ≤ digits <<< 53 := by
      rw [Nat.shiftLeft_eq]
      omega
    have hvalue : ((digits <<< 53 : ℕ) : ℚ) * 2 ^ (-53 : ℤ) * ((10 ^ power.toNat : ℕ) * 2 ^ (0 : ℤ)) =
        digits * 10 ^ power := by
      rw [ten_zpow_of_nonneg hsign, show power.toNat = power.natAbs by omega, Nat.shiftLeft_eq]
      push_cast
      norm_num
      ring
    rw [← hvalue]
    exact exists_nearest_mul _ _ hfull
  · have hvalue : (digits : ℚ) * 2 ^ (0 : ℤ) / ((10 ^ (-power).toNat : ℕ) * 2 ^ (0 : ℤ)) =
        digits * 10 ^ power := by
      rw [ten_zpow_of_neg (not_le.mp hsign), show (-power).toNat = power.natAbs by omega, zpow_zero, mul_one,
        mul_one, Nat.cast_pow, div_eq_mul_inv]
      rfl
    rw [← hvalue]
    exact exists_nearest_div _ _

/-- Digits times a power of ten become the double that they round to. -/
theorem unpack_ofScientific (hdigits : 0 < digits) (hhigh : power ≤ 2048)
    (hlow : -(2048 + digits.log2) ≤ power)
    (hrounds : Rounds significand exponent narrowBelow (digits * 10 ^ power))
    (hcanonical : IsCanonical significand exponent narrowBelow) (hpositive : 0 < significand) :
    (Float.ofScientific digits (power < 0) power.natAbs).toModel.unpack =
      .finite .positive significand exponent hpositive := by
  have hexact : (Float.Model.ofScientific digits power).unpack =
      .finite .positive significand exponent hpositive := by
    obtain ⟨_, _, hnearest, hrounded⟩ := exists_nearest_ofScientific hdigits hhigh hlow
    rw [Float.Model.ofScientific, hrounded, hnearest.ofParts_eq hrounds hcanonical hpositive,
      unpack_pack hcanonical .positive hpositive]
  unfold Float.ofScientific
  -- Short digits with a small power are exact doubles, all others are rounded once.
  split_ifs with hshort hsign hsign
  · rw [ten_zpow_of_neg (of_decide_eq_true hsign), ← div_eq_mul_inv] at hrounds
    exact unpack_div (isExactly_toFloat hdigits hshort.1)
      (isExactly_powerOfTen ⟨power.natAbs, by omega⟩) hrounds hcanonical hpositive
  · rw [ten_zpow_of_nonneg (by simpa using hsign)] at hrounds
    exact unpack_mul (isExactly_toFloat hdigits hshort.1)
      (isExactly_powerOfTen ⟨power.natAbs, by omega⟩) hrounds hcanonical hpositive
  · have hpower : Int.negOfNat power.natAbs = power := by
      rw [Int.negOfNat_eq, Int.ofNat_eq_natCast, Int.ofNat_natAbs_of_nonpos (of_decide_eq_true hsign).le,
        neg_neg]
    rwa [← hpower] at hexact
  · have hpower : Int.ofNat power.natAbs = power := Int.natAbs_of_nonneg (by simpa using hsign)
    rwa [← hpower] at hexact

/-! ### Decimals in the range of doubles -/

/-- The place of the leading digit of a number bounds it. -/
theorem leading_bounds (hdigits : 0 < digits) (power : ℤ) :
    (10 : ℚ) ^ (power + Decimal.digitCount digits - 1) ≤ digits * 10 ^ power ∧
      digits * (10 : ℚ) ^ power < 10 ^ (power + Decimal.digitCount digits) := by
  have hcount : 0 < Decimal.digitCount digits := Nat.length_toDigits_pos
  have hlow : ((10 ^ (Decimal.digitCount digits - 1) : ℕ) : ℚ) ≤ digits :=
    Nat.cast_le.mpr (Decimal.pow_le_of_digitCount hdigits)
  have hhigh : (digits : ℚ) < (10 ^ Decimal.digitCount digits : ℕ) :=
    Nat.cast_lt.mpr (Decimal.lt_pow_digitCount digits)
  have hten : (0 : ℚ) < 10 ^ power := by positivity
  push_cast at hlow hhigh
  constructor
  · rw [add_sub_assoc, add_comm, zpow_add₀ (by norm_num), ← Nat.cast_pred hcount, zpow_natCast]
    exact mul_le_mul_of_nonneg_right hlow hten.le
  · rw [add_comm, zpow_add₀ (by norm_num), zpow_natCast]
    exact mul_lt_mul_of_pos_right hhigh hten

/-- A number that rounds to a double other than zero lies in the range of doubles. -/
theorem Rounds.range (hrounds : Rounds significand exponent narrowBelow value)
    (hrange : InRange significand exponent) (hpositive : 0 < significand) :
    (2 : ℚ) ^ (-1075 : ℤ) ≤ value ∧ value ≤ 2 ^ (1024 : ℤ) := by
  obtain ⟨hsmall, hlow, hhigh⟩ := hrange
  have hquarter : (0 : ℚ) < 2 ^ (exponent - 2) := by positivity
  constructor
  · have hend : (2 : ℚ) ≤ lowQuarters significand narrowBelow := by
      exact_mod_cast (show 2 ≤ 4 * significand - 2 by omega).trans (le_lowQuarters significand narrowBelow)
    calc (2 : ℚ) ^ (-1075 : ℤ) ≤ 2 ^ (exponent - 2 + 1) := zpow_le_zpow_right₀ one_le_two (by omega)
      _ = 2 * 2 ^ (exponent - 2) := by rw [zpow_add_one₀ two_ne_zero, mul_comm]
      _ ≤ lowQuarters significand narrowBelow * 2 ^ (exponent - 2) :=
        mul_le_mul_of_nonneg_right hend hquarter.le
      _ ≤ value := hrounds.lower.elim le_of_lt fun hclosed => hclosed.2.le
  · have hend : ((4 * significand + 2 : ℕ) : ℚ) ≤ 2 ^ (55 : ℤ) := by
      exact_mod_cast (show 4 * significand + 2 ≤ 2 ^ 55 by omega)
    calc value ≤ (4 * significand + 2 : ℕ) * 2 ^ (exponent - 2) :=
        hrounds.upper.elim le_of_lt fun hclosed => hclosed.2.le
      _ ≤ 2 ^ (55 : ℤ) * 2 ^ (exponent - 2) := mul_le_mul_of_nonneg_right hend hquarter.le
      _ = 2 ^ (55 + (exponent - 2)) := (zpow_add₀ two_ne_zero ..).symm
      _ ≤ 2 ^ (1024 : ℤ) := zpow_le_zpow_right₀ one_le_two (by omega)

/-- The leading digit of a decimal that rounds to a double other than zero is within 400 places. -/
theorem Rounds.leading (hrounds : Rounds significand exponent narrowBelow (digits * 10 ^ power))
    (hrange : InRange significand exponent) (hpositive : 0 < significand) :
    0 < digits ∧ -400 ≤ power + Decimal.digitCount digits ∧ power + Decimal.digitCount digits ≤ 400 := by
  have hdigits : 0 < digits := by
    rw [Nat.pos_iff_ne_zero]
    rintro rfl
    have hvalue := hrounds.pos hpositive.ne'
    rw [Nat.cast_zero, zero_mul] at hvalue
    exact lt_irrefl _ hvalue
  obtain ⟨hleast, hgreatest⟩ := hrounds.range hrange hpositive
  obtain ⟨hlow, hhigh⟩ := leading_bounds hdigits power
  refine ⟨hdigits, ?_, ?_⟩
  · by_contra hsmall
    have hpowers : (10 : ℚ) ^ (power + Decimal.digitCount digits) < 2 ^ (-1075 : ℤ) :=
      ten_zpow_lt_two_zpow (by omega) (by omega)
    linarith
  · by_contra hlarge
    have hpowers : (10 : ℚ) ^ (-(power + Decimal.digitCount digits - 1)) < 2 ^ (-1024 : ℤ) :=
      ten_zpow_lt_two_zpow (by omega) (by omega)
    rw [zpow_neg, zpow_neg, inv_lt_inv₀ (by positivity) (by positivity)] at hpowers
    linarith

/-- The negative of a double is packed with the other sign. -/
theorem unpack_neg {double : Float} (hcanonical : IsCanonical significand exponent narrowBelow)
    (hpositive : 0 < significand)
    (hdouble : double.toModel.unpack = .finite .positive significand exponent hpositive) :
    (-double).toModel.unpack = .finite .negative significand exponent hpositive := by
  change (Float.Model.pack double.toModel.unpack.neg).unpack = _
  rw [hdouble]
  exact unpack_pack hcanonical .negative hpositive

/-- A decimal becomes the double that it rounds to. -/
theorem ofDecimal_eq {decimal : Decimal} {double : Float}
    (hdouble : ofFloat double = .finite decimal.negative significand exponent narrowBelow)
    (hpositive : 0 < significand)
    (hrounds : Rounds significand exponent narrowBelow decimal.magnitude) :
    Double.ofDecimal decimal = double := by
  have hcanonical : IsCanonical significand exponent narrowBelow :=
    (ofBits_eq_finite double.toBits.toNat_lt hdouble).1
  obtain ⟨hdigits, hlow, hhigh⟩ := hrounds.leading hcanonical.toInRange hpositive
  have hcount := Decimal.digitCount_le_log2 decimal.digits
  have hmagnitude := unpack_ofScientific hdigits (by omega) (by omega) hrounds hcanonical hpositive
  have hunpack := unpack_toModel double
  rw [hdouble, unpacked, dif_neg hpositive.ne'] at hunpack
  have htop : ¬400 < decimal.exponent + Decimal.digitCount decimal.digits := by omega
  have hbottom : ¬decimal.exponent + Decimal.digitCount decimal.digits < -400 := by omega
  apply eq_of_unpack_eq
  unfold Double.ofDecimal
  dsimp only
  rw [if_neg hdigits.ne', if_neg htop, if_neg hbottom, hunpack]
  cases decimal.negative with
  | true =>
    rw [if_pos rfl]
    exact unpack_neg hcanonical hpositive hmagnitude
  | false =>
    rw [if_neg Bool.false_ne_true]
    exact hmagnitude

/-- A decimal without digits becomes the zero with its sign. -/
theorem ofDecimal_of_zero {decimal : Decimal} {double : Float} (hdigits : decimal.digits = 0)
    (hdouble : ofFloat double = .finite decimal.negative 0 exponent narrowBelow) :
    Double.ofDecimal decimal = double := by
  have hunpack := unpack_toModel double
  rw [hdouble, unpacked, dif_pos rfl] at hunpack
  apply eq_of_unpack_eq
  unfold Double.ofDecimal
  dsimp only
  rw [if_pos hdigits, hunpack]
  cases decimal.negative with
  | true => rfl
  | false => rfl

/-- A double is found again from any decimal with the sign and the magnitude of its shortest one. -/
theorem ofDecimal_of_shortest {tie : Tie} {decimal : Decimal} {double : Float} {negative : Bool}
    (hdouble : ofFloat double = .finite negative significand exponent narrowBelow)
    (hsign : decimal.negative = negative)
    (hmagnitude : decimal.magnitude = (shortest tie negative significand exponent narrowBelow).magnitude) :
    Double.ofDecimal decimal = double := by
  have hrange : InRange significand exponent := (ofBits_eq_finite double.toBits.toNat_lt hdouble).1.toInRange
  subst hsign
  by_cases hzero : significand = 0
  · rw [(magnitude_shortest_eq_zero_iff hrange decimal.negative).mpr hzero, Decimal.magnitude] at hmagnitude
    have hdigits : decimal.digits = 0 := by
      rw [mul_eq_zero, Nat.cast_eq_zero] at hmagnitude
      exact hmagnitude.resolve_right (by positivity)
    subst hzero
    exact ofDecimal_of_zero hdigits hdouble
  · apply ofDecimal_eq hdouble (Nat.pos_of_ne_zero hzero)
    rw [hmagnitude]
    exact rounds_shortest hrange hzero decimal.negative

end PrivateFootage.Binary
