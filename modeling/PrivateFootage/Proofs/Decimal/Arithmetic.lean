import Mathlib
import PrivateFootage.Proofs.Decimal.Rounding

/-!
# Products, quotients and whole numbers as doubles

The product of two doubles is the double that the exact product rounds to, and so is the quotient, if the
exact result lies in the interval of some double. Whole numbers of up to 53 bits and the powers of ten up
to the twenty-second are doubles themselves.
-/

namespace PrivateFootage.Binary

open Float.Model Float.Model.UnpackedFloat

variable {significand : ℕ} {exponent : ℤ} {narrowBelow : Bool} {value : ℚ}
  {first second : ℕ} {power power' : ℤ}

/-- A fraction of a unit is noted. -/
theorem notes_accuracyOfFraction {numerator denominator : ℕ} (hlt : numerator < denominator) :
    Notes (accuracyOfFraction numerator denominator) (numerator / denominator) := by
  have hpositive : (0 : ℚ) < denominator := Nat.cast_pos.mpr (by omega)
  have hless : (numerator : ℚ) < denominator := Nat.cast_lt.mpr hlt
  unfold accuracyOfFraction
  split_ifs with hzero
  · rw [hzero, Nat.cast_zero, zero_div]
    rfl
  · have hsome : (0 : ℚ) < numerator := Nat.cast_pos.mpr (by omega)
    cases hmiddle : compare (2 * numerator) denominator with
    | lt =>
      have hbelow : (2 * numerator : ℚ) < denominator := by exact_mod_cast Nat.compare_eq_lt.mp hmiddle
      exact ⟨by positivity, by rw [div_lt_div_iff₀ hpositive two_pos]; linarith⟩
    | eq =>
      have hhalf : (2 * numerator : ℚ) = denominator := by exact_mod_cast Nat.compare_eq_eq.mp hmiddle
      change (numerator / denominator : ℚ) = 1 / 2
      rw [div_eq_div_iff hpositive.ne' two_ne_zero]
      linarith
    | gt =>
      have habove : (denominator : ℚ) < 2 * numerator := by exact_mod_cast Nat.compare_eq_gt.mp hmiddle
      exact ⟨by rw [div_lt_div_iff₀ two_pos hpositive]; linarith, by rwa [div_lt_one hpositive]⟩

/-- A quotient is located at its whole part. -/
theorem located_divCore (hsecond : 0 < second) :
    Located (divCore .binary64 first power second power').1 (divCore .binary64 first power second power').2.1
      (divCore .binary64 first power second power').2.2
      (first * 2 ^ power / (second * 2 ^ power')) := by
  unfold divCore
  dsimp only
  generalize htarget : min (power - power') (Format.binary64.targetExponent
    (totalExponent first power - totalExponent second power')) = target
  obtain ⟨count, hcount⟩ := Int.le.dest (htarget ▸ min_le_left (power - power') _ : target ≤ power - power')
  have hshift : (power - power' - target).toNat = count := by omega
  rw [hshift]
  refine ⟨_, notes_accuracyOfFraction (Nat.mod_lt _ hsecond), ?_⟩
  have hparts : ((first <<< count : ℕ) : ℚ) =
      second * (first <<< count / second : ℕ) + (first <<< count % second : ℕ) := by
    exact_mod_cast (Nat.div_add_mod (first <<< count) second).symm
  have hwhole : ((first <<< count : ℕ) : ℚ) = first * 2 ^ count := by
    rw [Nat.shiftLeft_eq]
    push_cast
    rfl
  have hpositive : (second : ℚ) ≠ 0 := Nat.cast_ne_zero.mpr hsecond.ne'
  have hpower : power = target + count + power' := by omega
  rw [hpower, zpow_add₀ two_ne_zero, zpow_add₀ two_ne_zero, zpow_natCast]
  field_simp
  rw [← hwhole]
  exact hparts

/-- A quotient of shifted numbers has its leading bit where those of the numbers tell, or next below. -/
theorem log2_div (hfirst : 0 < first) (hsecond : 0 < second) (count : ℕ) :
    first.log2 + count ≤ (first <<< count / second).log2 + second.log2 + 1 := by
  have hlog : first.log2 + count < (first <<< count / second).log2 + 1 + (second.log2 + 1) := by
    rw [← Nat.pow_lt_pow_iff_right (show 1 < 2 by omega)]
    calc 2 ^ (first.log2 + count) = 2 ^ first.log2 * 2 ^ count := pow_add ..
      _ ≤ first * 2 ^ count := Nat.mul_le_mul_right _ (Nat.log2_self_le hfirst.ne')
      _ = first <<< count := (Nat.shiftLeft_eq ..).symm
      _ < (first <<< count / second + 1) * second := by
        rw [mul_comm]
        exact Nat.lt_mul_div_succ _ hsecond
      _ ≤ 2 ^ ((first <<< count / second).log2 + 1) * 2 ^ (second.log2 + 1) :=
        Nat.mul_le_mul Nat.lt_log2_self Nat.lt_log2_self.le
      _ = 2 ^ ((first <<< count / second).log2 + 1 + (second.log2 + 1)) := (pow_add ..).symm
  omega

/-- A quotient has enough bits. -/
theorem divCore_power_le (hfirst : 0 < first) (hsecond : 0 < second) :
    (divCore .binary64 first power second power').2.1 ≤ Format.binary64.targetExponent
      (totalExponent (divCore .binary64 first power second power').1
        (divCore .binary64 first power second power').2.1) := by
  unfold divCore
  dsimp only
  rw [targetExponent_eq, targetExponent_eq]
  unfold totalExponent
  generalize htarget : min (power - power')
    (max (first.log2 + 1 + power - (second.log2 + 1 + power') - 53) (-1074)) = target
  -- The power was lowered by as many places as the dividend was shifted up.
  have hlog := log2_div hfirst hsecond (power - power' - target).toNat
  omega

/-- The quotient of two positive doubles is what the exact quotient rounds to. -/
theorem exists_nearest_div (hfirst : 0 < first) (hsecond : 0 < second) :
    ∃ significand exponent, Nearest significand exponent (first * 2 ^ power / (second * 2 ^ power')) ∧
      UnpackedFloat.div .binary64 (.finite .positive first power hfirst)
        (.finite .positive second power' hsecond) = ofParts .positive significand exponent :=
  exists_nearest (located_divCore hsecond) (divCore_power_le hfirst hsecond) .positive

/-- The product of two positive doubles, one of them full, is what the exact product rounds to. -/
theorem exists_nearest_mul (hfirst : 0 < first) (hsecond : 0 < second) (hfull : 2 ^ 52 ≤ first) :
    ∃ significand exponent, Nearest significand exponent (first * 2 ^ power * (second * 2 ^ power')) ∧
      UnpackedFloat.mul .binary64 (.finite .positive first power hfirst)
        (.finite .positive second power' hsecond) = ofParts .positive significand exponent := by
  have hlong : 52 ≤ (first * second).log2 :=
    (Nat.le_log2 (by positivity)).mpr (hfull.trans (Nat.le_mul_of_pos_right _ hsecond))
  have hproduct : ((first * second : ℕ) : ℚ) * 2 ^ (power + power') =
      first * 2 ^ power * (second * 2 ^ power') := by
    rw [zpow_add₀ two_ne_zero]
    push_cast
    ring
  rw [← hproduct]
  refine exists_nearest (located_exact _ _) ?_ .positive
  rw [targetExponent_eq, totalExponent]
  omega

/-- A double is a positive number exactly, with a full significand. -/
def IsExactly (double : Float) (value : ℚ) : Prop :=
  ∃ significand exponent hpositive,
    double.toModel.unpack = .finite .positive significand exponent hpositive ∧ 2 ^ 52 ≤ significand ∧
      (significand : ℚ) * 2 ^ exponent = value

/-- A double rounds to itself. -/
theorem rounds_self (hpositive : 0 < significand) :
    Rounds significand exponent narrowBelow (significand * 2 ^ exponent) := by
  have hnear : Rounds significand exponent false (significand * 2 ^ exponent) :=
    rounds_of_near (Nat.cast_nonneg significand) (.inl (by linarith)) (.inl (by linarith))
  exact hnear.of_le hpositive le_rfl

/-- A whole number of up to 53 bits is shifted to a full significand. -/
theorem round_of_lt {count : ℕ} (hpositive : 0 < count) (hsmall : count < 2 ^ 53) :
    ∃ significand exponent, ∃ hfull : 2 ^ 52 ≤ significand,
      IsCanonical significand exponent (decide (significand = 2 ^ 52 ∧ exponent ≠ -1074)) ∧
      (significand : ℚ) * 2 ^ exponent = count ∧
      UnpackedFloat.round .binary64 .positive count 0 =
        .finite .positive significand exponent (hfull.trans_lt' (by norm_num)) := by
  have hlog : count.log2 ≤ 52 := Nat.le_of_lt_succ ((Nat.log2_lt hpositive.ne').mpr hsmall)
  obtain ⟨steps, hsteps⟩ := Nat.le.dest hlog
  have hfull : 2 ^ 52 ≤ count * 2 ^ steps := by
    rw [← hsteps, pow_add]
    exact Nat.mul_le_mul_right _ (Nat.log2_self_le hpositive.ne')
  have hlt : count * 2 ^ steps < 2 ^ 53 := by
    rw [show 53 = count.log2 + 1 + steps by omega, pow_add]
    exact Nat.mul_lt_mul_of_pos_right Nat.lt_log2_self (by positivity)
  have hvalue : ((count * 2 ^ steps : ℕ) : ℚ) * 2 ^ (-steps : ℤ) = count := by
    push_cast
    rw [zpow_neg, zpow_natCast]
    field_simp
  have hcanonical : IsCanonical (count * 2 ^ steps) (-steps)
      (decide (count * 2 ^ steps = 2 ^ 52 ∧ (-steps : ℤ) ≠ -1074)) :=
    ⟨⟨hlt, by omega, by omega⟩, fun _ => hfull, decide_eq_true_iff⟩
  refine ⟨_, _, hfull, hcanonical, hvalue, ?_⟩
  have hshift : (0 - Format.binary64.targetExponent (totalExponent count 0)).toNat = steps := by
    rw [targetExponent_eq, totalExponent]
    omega
  unfold UnpackedFloat.round decreaseExponent
  dsimp only
  rw [hshift, zero_sub, Nat.shiftLeft_eq]
  refine roundWithAccuracy_eq (located_exact _ _) ?_ (rounds_self (by omega)) hcanonical _ .positive
  have hlong : (count * 2 ^ steps).log2 = 52 := (Nat.log2_eq_iff (by omega)).mpr ⟨hfull, hlt⟩
  rw [targetExponent_eq, totalExponent, hlong]
  omega

/-- Whole numbers of up to 53 bits are doubles. -/
theorem isExactly_toFloat {count : ℕ} (hpositive : 0 < count) (hsmall : count < 2 ^ 53) :
    IsExactly count.toUInt64.toFloat count := by
  have hword : count.toUInt64.toNat = count := by
    rw [Nat.toUInt64, UInt64.toNat_ofNat']
    omega
  obtain ⟨significand, exponent, hfull, hcanonical, hvalue, hround⟩ := round_of_lt hpositive hsmall
  refine ⟨significand, exponent, hfull.trans_lt' (by norm_num), ?_, hfull, hvalue⟩
  have hunpacked : UnpackedFloat.ofUInt64 .binary64 count.toUInt64 =
      UnpackedFloat.round .binary64 .positive count 0 := by
    unfold UnpackedFloat.ofUInt64 UnpackedFloat.ofNat UnpackedFloat.ofInt UnpackedFloat.normalize
    rw [hword, Int.compare_eq_gt.mpr (by omega)]
    rfl
  change (Float.Model.pack (UnpackedFloat.ofUInt64 .binary64 count.toUInt64)).unpack = _
  rw [hunpacked, hround]
  exact unpack_pack hcanonical _ _

/-- Whether a value is a positive whole number, with a full significand. -/
def isWhole (count : ℕ) : Binary → Bool
  | .finite negative significand exponent _ =>
    !negative && decide (2 ^ 52 ≤ significand) &&
      decide (significand * 2 ^ exponent.toNat = count * 2 ^ (-exponent).toNat)
  | _ => false

/-- A double whose value is a whole number is that number exactly. -/
theorem isExactly_of_isWhole {double : Float} {count : ℕ} (hwhole : isWhole count (ofFloat double) = true) :
    IsExactly double count := by
  have hunpack := unpack_toModel double
  cases hvalue : ofFloat double with
  | finite negative significand exponent narrowBelow =>
    rw [hvalue, isWhole, Bool.and_eq_true, Bool.and_eq_true, decide_eq_true_eq, decide_eq_true_eq,
      Bool.not_eq_true'] at hwhole
    obtain ⟨⟨rfl, hfull⟩, hcount⟩ := hwhole
    rw [hvalue, unpacked, dif_neg (by omega)] at hunpack
    refine ⟨_, _, _, hunpack, hfull, ?_⟩
    have hpower := pow_toNat (show (2 : ℚ) ≠ 0 by norm_num) exponent
    have hcast : (significand : ℚ) * 2 ^ exponent.toNat = count * 2 ^ (-exponent).toNat := by
      exact_mod_cast hcount
    rw [hpower, ← mul_assoc] at hcast
    exact mul_right_cancel₀ (by positivity) hcast
  | infinite negative => rw [hvalue] at hwhole; cases hwhole
  | notANumber => rw [hvalue] at hwhole; cases hwhole

/-- The powers of ten up to the twenty-second are doubles. -/
theorem isExactly_powerOfTen (power : Fin 23) :
    IsExactly (Float.exactlyRepresentablePowersOfTen[power]) (10 ^ (power : ℕ)) := by
  have hall : ∀ power : Fin 23,
      isWhole (10 ^ (power : ℕ)) (ofFloat (Float.exactlyRepresentablePowersOfTen[power])) = true := by
    decide +kernel
  have hexact := isExactly_of_isWhole (hall power)
  rwa [Nat.cast_pow] at hexact

end PrivateFootage.Binary
