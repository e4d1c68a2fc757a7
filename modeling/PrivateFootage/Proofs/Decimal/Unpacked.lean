import Mathlib
import PrivateFootage.Proofs.Decimal.Double

/-!
# Doubles as arithmetic takes them

Arithmetic on doubles unpacks the bits into a sign, a significand and an exponent, and packs the result
again. What it unpacks is the value of the double, and a significand and an exponent in canonical form
are unpacked as they were packed.
-/

namespace PrivateFootage.Binary

open Float.Model Float.Model.UnpackedFloat

variable {significand : ℕ} {exponent : ℤ} {narrowBelow : Bool}

/-- The sign of a double. -/
def sign (negative : Bool) : Sign := if negative then .negative else .positive

/-- A value as arithmetic takes it: zero is told apart from the other finite ones. -/
def unpacked : Binary → UnpackedFloat
  | .finite negative significand exponent _ =>
    if hzero : significand = 0 then .zero (sign negative)
    else .finite (sign negative) significand exponent (Nat.pos_of_ne_zero hzero)
  | .infinite negative => .infinity (sign negative)
  | .notANumber => .notANumber

section Bits

variable (bits : BitVec 64)

/-- The sign in the bits of a double. -/
theorem ofBitVec_unpackSign :
    Sign.ofBitVec (@unpackSign .binary64 bits) =
      sign (decide (fractionCount * exponentCount ≤ bits.toNat)) := by
  have hbits := bits.isLt
  have hbit : (@unpackSign .binary64 bits).toNat = bits.toNat / 2 ^ 63 % 2 := by
    rw [unpackSign_def, BitVec.extractLsb'_toNat, Nat.shiftRight_eq_div_pow]
    rfl
  have hzero : @unpackSign .binary64 bits = 0#1 ↔ ¬fractionCount * exponentCount ≤ bits.toNat := by
    rw [← BitVec.toNat_inj, hbit, BitVec.toNat_ofNat]
    unfold fractionCount exponentCount
    omega
  rw [Sign.ofBitVec, sign]
  by_cases hnegative : fractionCount * exponentCount ≤ bits.toNat
  · rw [if_neg (hzero.not.mpr (not_not.mpr hnegative)), if_pos (decide_eq_true hnegative)]
  · rw [if_pos (hzero.mpr hnegative), if_neg (by rwa [decide_eq_true_eq])]

/-- The significand of a full double is its fraction with one more bit in front. -/
theorem toNat_append_unpackMantissa :
    (1#1 ++ @unpackMantissa .binary64 bits).toNat = fractionCount + bits.toNat % fractionCount := by
  rw [BitVec.toNat_append, ← Nat.shiftLeft_add_eq_or_of_lt (BitVec.isLt _), toNat_unpackMantissa]
  rfl

/-- What arithmetic unpacks is the value that the bits stand for. -/
theorem unpack_eq : UnpackedFloat.unpack .binary64 bits = (ofBits bits.toNat).unpacked := by
  have hexponent := toNat_unpackExponent bits
  have hfraction := toNat_unpackMantissa bits
  have hsign := ofBitVec_unpackSign bits
  have hlast : @unpackExponent .binary64 bits = -1#11 ↔
      bits.toNat / fractionCount % exponentCount + 1 = exponentCount := by
    rw [← BitVec.toNat_inj, hexponent]
    exact (Nat.add_left_inj (n := 1)).symm
  have hfirst : @unpackExponent .binary64 bits = 0#11 ↔
      bits.toNat / fractionCount % exponentCount = 0 := by
    rw [← BitVec.toNat_inj, hexponent]
    rfl
  have hnone : @unpackMantissa .binary64 bits = 0#52 ↔ bits.toNat % fractionCount = 0 := by
    rw [← BitVec.toNat_inj, hfraction]
    rfl
  unfold UnpackedFloat.unpack ofBits
  dsimp only
  by_cases hinfinite : bits.toNat / fractionCount % exponentCount + 1 = exponentCount
  · rw [if_pos (hlast.mpr hinfinite), if_pos hinfinite]
    by_cases hempty : bits.toNat % fractionCount = 0
    · rw [if_pos (hnone.mpr hempty), if_pos hempty, hsign, unpacked]
    · rw [if_neg (hnone.not.mpr hempty), if_neg hempty, unpacked]
  · rw [if_neg (hlast.not.mpr hinfinite), if_neg hinfinite]
    by_cases hzero : bits.toNat / fractionCount % exponentCount = 0
    · rw [if_pos (hfirst.mpr hzero), if_pos hzero]
      by_cases hempty : bits.toNat % fractionCount = 0
      · rw [dif_pos (hnone.mpr hempty), unpacked, dif_pos hempty, hsign]
      · rw [dif_neg (hnone.not.mpr hempty), unpacked, dif_neg hempty]
        congr 1
        rw [hexponent, hzero]
        rfl
    · have hfull : fractionCount + bits.toNat % fractionCount ≠ 0 := by
        unfold fractionCount
        omega
      rw [if_neg (hfirst.not.mpr hzero), if_neg hzero, unpacked, dif_neg hfull]
      congr 1
      · exact toNat_append_unpackMantissa bits
      · rw [hexponent]
        rfl

end Bits

/-- What arithmetic unpacks is the value of the double. -/
theorem unpack_toModel (value : Float) : value.toModel.unpack = (ofFloat value).unpacked :=
  unpack_eq value.toBits.toBitVec

/-- A double is finite if it has a significand and an exponent. -/
theorem isFinite_eq_true_iff {value : Float} :
    value.isFinite = true ↔ ∃ negative significand exponent narrowBelow,
      ofFloat value = .finite negative significand exponent narrowBelow := by
  have hfinite : value.isFinite = (ofFloat value).unpacked.isFinite := by
    rw [← unpack_toModel]
    rfl
  rw [hfinite]
  cases ofFloat value with
  | finite negative significand exponent narrowBelow =>
    by_cases hzero : significand = 0 <;> simp [unpacked, hzero, UnpackedFloat.isFinite]
  | infinite negative => simp [unpacked, UnpackedFloat.isFinite]
  | notANumber => simp [unpacked, UnpackedFloat.isFinite]

/-- Doubles that arithmetic takes in the same way are the same. -/
theorem eq_of_unpack_eq {first second : Float} (hsame : first.toModel.unpack = second.toModel.unpack) :
    first = second :=
  Float.toBits_inj.mp <| UInt64.toBitVec_inj.mp <|
    (unpack_inj_of_valid first.toModel.valid second.toModel.valid).mp hsame

/-- The components of the bits of a finite double. -/
theorem pack_finite (hcanonical : IsCanonical significand exponent narrowBelow) (sign : Sign)
    (hpositive : 0 < significand) :
    UnpackedFloat.pack .binary64 (.finite sign significand exponent hpositive) =
      packComponents .binary64 sign
        (if 2 ^ 52 ≤ significand then BitVec.ofNat 11 (exponent + 1075).toNat else 0#11)
        (BitVec.ofNat 52 significand) := by
  obtain ⟨⟨hsmall, hlow, hhigh⟩, hfull, -⟩ := hcanonical
  have hbiased : (exponent + Format.binary64.exponentBias + Format.binary64.mantissaBitsWithoutImplicit).toNat =
      (exponent + 1075).toNat := by
    change (exponent + 1023 + 52).toNat = _
    rw [add_assoc]
    rfl
  have hfits : ¬2 ^ Format.binary64.exponentBits ≤ (exponent + 1075).toNat + 1 := by
    change ¬2048 ≤ _
    omega
  unfold UnpackedFloat.pack
  dsimp only
  rw [hbiased, if_neg hfits]
  by_cases hleast : 2 ^ 52 ≤ significand
  · have hlog : significand.log2 = 52 := (Nat.log2_eq_iff hpositive.ne').mpr ⟨hleast, hsmall⟩
    rw [if_pos hleast, hlog]
    rfl
  · have hlog : significand.log2 < 52 := (Nat.log2_lt hpositive.ne').mpr (not_le.mp hleast)
    rw [if_neg hleast, if_neg]
    change ¬significand.log2 + 1 = 53
    omega

/-- A significand and an exponent in canonical form are unpacked as they were packed. -/
theorem unpack_pack (hcanonical : IsCanonical significand exponent narrowBelow)
    (sign : Sign) (hpositive : 0 < significand) :
    (Float.Model.pack (.finite sign significand exponent hpositive)).unpack =
      .finite sign significand exponent hpositive := by
  have hpack := pack_finite hcanonical sign hpositive
  obtain ⟨⟨hsmall, hlow, hhigh⟩, hfull, -⟩ := hcanonical
  change UnpackedFloat.unpack .binary64 (UnpackedFloat.pack .binary64 _) = _
  rw [hpack]
  unfold UnpackedFloat.unpack
  simp only [unpackExponent_packComponents, unpackMantissa_packComponents, unpackSign_packComponents,
    Sign.ofBitVec_toBitVec]
  -- The first bit of a full significand is not packed; one that is not full has the exponent of zero.
  by_cases hleast : 2 ^ 52 ≤ significand
  · have hbiased : (BitVec.ofNat 11 (exponent + 1075).toNat).toNat = (exponent + 1075).toNat := by
      rw [BitVec.toNat_ofNat, Nat.mod_eq_of_lt (by omega)]
    have hlast : BitVec.ofNat 11 (exponent + 1075).toNat ≠ -1#11 := by
      rw [Ne, ← BitVec.toNat_inj, hbiased]
      change ¬_ = 2047
      omega
    have hfirst : BitVec.ofNat 11 (exponent + 1075).toNat ≠ 0#11 := by
      rw [Ne, ← BitVec.toNat_inj, hbiased]
      change ¬_ = 0
      omega
    rw [if_pos hleast, if_neg hlast, if_neg hfirst]
    congr 1
    · have hfraction : (BitVec.ofNat 52 significand).toNat = significand - 2 ^ 52 := by
        rw [BitVec.toNat_ofNat]
        omega
      rw [BitVec.toNat_append, ← Nat.shiftLeft_add_eq_or_of_lt (BitVec.isLt _), hfraction]
      exact Nat.add_sub_cancel' hleast
    · rw [hbiased]
      change _ - (1023 + 52 : ℤ) = _
      omega
  · have hleastExponent : exponent = -1074 := by
      by_contra hother
      exact hleast (hfull hother)
    have hfraction : (BitVec.ofNat 52 significand).toNat = significand := by
      rw [BitVec.toNat_ofNat, Nat.mod_eq_of_lt (not_le.mp hleast)]
    have hnone : BitVec.ofNat 52 significand ≠ 0#52 := by
      rw [Ne, ← BitVec.toNat_inj, hfraction]
      exact hpositive.ne'
    rw [if_neg hleast, if_neg (by decide), if_pos rfl, dif_neg hnone]
    congr 1
    rw [hleastExponent]
    rfl

/-- What has an exponent beyond the last one is packed as infinity. -/
theorem unpack_pack_of_large (sign : Sign) (hpositive : 0 < significand) (hlarge : 971 < exponent) :
    (Float.Model.pack (.finite sign significand exponent hpositive)).unpack = .infinity sign := by
  have hover : 2 ^ Format.binary64.exponentBits ≤
      (exponent + Format.binary64.exponentBias + Format.binary64.mantissaBitsWithoutImplicit).toNat + 1 := by
    change 2048 ≤ (exponent + 1023 + 52).toNat + 1
    omega
  have hpack : UnpackedFloat.pack .binary64 (.finite sign significand exponent hpositive) =
      packedInfinity .binary64 sign := if_pos hover
  change UnpackedFloat.unpack .binary64 (UnpackedFloat.pack .binary64 _) = _
  rw [hpack]
  cases sign <;> rfl

end PrivateFootage.Binary
