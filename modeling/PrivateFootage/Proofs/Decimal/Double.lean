import Mathlib
import PrivateFootage.Double
import PrivateFootage.Proofs.Decimal.Shortest

/-!
# Doubles are told apart by their texts in messages

The bits of a double are put together again from its sign, its significand and its exponent, and these are
found in the shortest decimal. There is one non-number only. So a double is known by its text.
-/

namespace PrivateFootage.Binary

variable {bits : ℕ} {negative : Bool} {significand : ℕ} {exponent : ℤ} {narrowBelow : Bool}

/-- The bit of a sign. -/
def signBit (negative : Bool) : ℕ := if negative then 2 ^ 63 else 0

/-- The bits of a double are its sign and its magnitude. -/
theorem eq_signBit_add (hbits : bits < 2 ^ 64)
    (hsign : decide (fractionCount * exponentCount ≤ bits) = negative) :
    bits = signBit negative + bits % 2 ^ 63 := by
  unfold fractionCount exponentCount at hsign
  unfold signBit
  split_ifs with hnegative
  · rw [hnegative, decide_eq_true_eq] at hsign
    omega
  · rw [Bool.not_eq_true] at hnegative
    rw [hnegative, decide_eq_false_iff_not] at hsign
    omega

/-- The bits of a finite double. -/
def finiteBits (negative : Bool) (significand : ℕ) (exponent : ℤ) : ℕ :=
  signBit negative +
    if significand < 2 ^ 52 then significand else (exponent + 1075).toNat * 2 ^ 52 + (significand - 2 ^ 52)

/-- A finite double is in canonical form, and its bits are found again. -/
theorem ofBits_eq_finite (hbits : bits < 2 ^ 64)
    (hfinite : ofBits bits = .finite negative significand exponent narrowBelow) :
    IsCanonical significand exponent narrowBelow ∧ bits = finiteBits negative significand exponent := by
  unfold ofBits at hfinite
  dsimp only at hfinite
  split_ifs at hfinite with hlast hfraction hzero
  · injection hfinite with hsign hsignificand hexponent hnarrow
    have hparts := eq_signBit_add hbits hsign
    dsimp only [fractionCount, exponentCount] at hlast hzero hsignificand
    refine ⟨⟨⟨?_, ?_, ?_⟩, ?_, ?_⟩, ?_⟩
    · omega
    · omega
    · omega
    · omega
    · rw [← hnarrow]
      simp only [Bool.false_eq_true, false_iff]
      omega
    · rw [finiteBits, if_pos (by omega)]
      omega
  · injection hfinite with hsign hsignificand hexponent hnarrow
    have hparts := eq_signBit_add hbits hsign
    dsimp only [fractionCount, exponentCount] at hlast hzero hsignificand hexponent
    refine ⟨⟨⟨?_, ?_, ?_⟩, ?_, ?_⟩, ?_⟩
    · omega
    · omega
    · omega
    · omega
    · rw [← hnarrow, decide_eq_true_eq]
      unfold fractionCount exponentCount
      omega
    · rw [finiteBits, if_neg (by omega)]
      omega

/-- The bits of an infinity. -/
theorem ofBits_eq_infinite (hbits : bits < 2 ^ 64) (hinfinite : ofBits bits = .infinite negative) :
    bits = signBit negative + 2047 * 2 ^ 52 := by
  unfold ofBits at hinfinite
  dsimp only at hinfinite
  split_ifs at hinfinite with hlast hzero
  injection hinfinite with hsign
  have hparts := eq_signBit_add hbits hsign
  unfold fractionCount exponentCount at hlast
  unfold fractionCount at hzero
  omega

/-- The bits of a non-number have the last exponent and a fraction. -/
theorem ofBits_eq_notANumber (hnone : ofBits bits = .notANumber) :
    bits / 2 ^ 52 % 2 ^ 11 = 2047 ∧ bits % 2 ^ 52 ≠ 0 := by
  unfold ofBits at hnone
  dsimp only at hnone
  split_ifs at hnone with hlast hzero
  unfold fractionCount exponentCount at hlast
  unfold fractionCount at hzero
  omega

open Float.Model.UnpackedFloat in
/-- The exponent in the bits of a double. -/
theorem toNat_unpackExponent (bits : BitVec 64) :
    (@unpackExponent .binary64 bits).toNat = bits.toNat / fractionCount % exponentCount := by
  rw [unpackExponent_def, BitVec.extractLsb'_toNat, Nat.shiftRight_eq_div_pow]
  rfl

open Float.Model.UnpackedFloat in
/-- The fraction in the bits of a double. -/
theorem toNat_unpackMantissa (bits : BitVec 64) :
    (@unpackMantissa .binary64 bits).toNat = bits.toNat % fractionCount := by
  rw [unpackMantissa_def, BitVec.extractLsb'_toNat, Nat.shiftRight_zero]
  rfl

open Float.Model.UnpackedFloat in
/-- There is one non-number only. -/
theorem toBits_of_notANumber {value : Float} (hnone : ofFloat value = .notANumber) :
    value.toBits.toBitVec = packedNaN .binary64 := by
  obtain ⟨hexponent, hfraction⟩ := ofBits_eq_notANumber hnone
  apply value.toModel.valid.eq_packedNaN
  · apply BitVec.eq_of_toNat_eq
    rw [toNat_unpackExponent]
    exact hexponent
  · intro hzero
    have hbits := congrArg BitVec.toNat hzero
    rw [toNat_unpackMantissa] at hbits
    exact hfraction hbits

/-- The bits of a double are known from its value. -/
theorem ofFloat_injective : Function.Injective ofFloat := by
  intro first second hsame
  have hfirst : first.toBits.toNat < 2 ^ 64 := first.toBits.toNat_lt
  have hsecond : second.toBits.toNat < 2 ^ 64 := second.toBits.toNat_lt
  apply Float.toBits_inj.mp
  cases hvalue : ofFloat first with
  | finite negative significand exponent narrowBelow =>
    apply UInt64.toNat_inj.mp
    rw [(ofBits_eq_finite hfirst hvalue).2, (ofBits_eq_finite hsecond (hsame ▸ hvalue)).2]
  | infinite negative =>
    apply UInt64.toNat_inj.mp
    rw [ofBits_eq_infinite hfirst hvalue, ofBits_eq_infinite hsecond (hsame ▸ hvalue)]
  | notANumber =>
    apply UInt64.toBitVec_inj.mp
    rw [toBits_of_notANumber hvalue, toBits_of_notANumber (hsame ▸ hvalue)]

/-- The sign of a double is the sign of its shortest decimal. -/
theorem negative_shortest (tie : Tie) (negative : Bool) (significand : ℕ) (exponent : ℤ)
    (narrowBelow : Bool) : (shortest tie negative significand exponent narrowBelow).negative = negative := by
  unfold shortest
  split_ifs
  · rfl
  · rfl

/-- Finite doubles are told apart by their texts. -/
theorem eq_of_plainText_finite_eq {negative' : Bool} {significand' : ℕ} {exponent' : ℤ}
    {narrowBelow' : Bool} (hcanonical : IsCanonical significand exponent narrowBelow)
    (hcanonical' : IsCanonical significand' exponent' narrowBelow')
    (hsame : plainText (.finite negative significand exponent narrowBelow) =
      plainText (.finite negative' significand' exponent' narrowBelow')) :
    finite negative significand exponent narrowBelow =
      .finite negative' significand' exponent' narrowBelow' := by
  obtain ⟨hsign, hmagnitude⟩ := Decimal.eq_of_plainChars_eq (String.ofList_injective hsame)
  rw [negative_shortest, negative_shortest] at hsign
  obtain ⟨rfl, rfl⟩ := eq_of_magnitude_shortest_eq hcanonical hcanonical' hmagnitude
  have hnarrow : narrowBelow = narrowBelow' := by
    rw [Bool.eq_iff_iff, hcanonical.narrow_iff, hcanonical'.narrow_iff]
  rw [hsign, hnarrow]

/-- The texts of infinities and of the non-number hold letters, which those of finite doubles do not. -/
theorem plainText_finite_ne {other : Binary}
    (hother : ∀ negative significand exponent narrowBelow,
      other ≠ .finite negative significand exponent narrowBelow) :
    plainText (.finite negative significand exponent narrowBelow) ≠ other.plainText := by
  intro hsame
  have hplain : ∀ character ∈ other.plainText.toList, Decimal.IsPlainCharacter character := by
    intro character hcharacter
    rw [← hsame, plainText, String.toList_ofList] at hcharacter
    exact Decimal.isPlainCharacter_of_mem_plainChars hcharacter
  cases other with
  | finite negative significand exponent narrowBelow => exact hother _ _ _ _ rfl
  | infinite negative =>
    have hletter := hplain 'n' (by cases negative <;> decide)
    revert hletter
    unfold Decimal.IsPlainCharacter
    decide
  | notANumber =>
    have hletter := hplain 'N' (by decide)
    revert hletter
    unfold Decimal.IsPlainCharacter
    decide

/-- A value whose significand and exponent, if it has any, are those of a double. -/
def Canonical : Binary → Prop
  | .finite _ significand exponent narrowBelow => IsCanonical significand exponent narrowBelow
  | .infinite _ | .notANumber => True

/-- The value of a double is in canonical form. -/
theorem canonical_ofFloat (value : Float) : (ofFloat value).Canonical := by
  cases hvalue : ofFloat value with
  | finite negative significand exponent narrowBelow =>
    exact (ofBits_eq_finite value.toBits.toNat_lt hvalue).1
  | infinite negative => trivial
  | notANumber => trivial

/-- Values in canonical form are told apart by their texts. -/
theorem eq_of_plainText_eq {first second : Binary} (hfirst : first.Canonical) (hsecond : second.Canonical)
    (hsame : first.plainText = second.plainText) : first = second := by
  cases first with
  | finite negative significand exponent narrowBelow =>
    cases second with
    | finite negative' significand' exponent' narrowBelow' =>
      exact eq_of_plainText_finite_eq hfirst hsecond hsame
    | infinite negative' => exact absurd hsame (plainText_finite_ne (by simp))
    | notANumber => exact absurd hsame (plainText_finite_ne (by simp))
  | infinite negative =>
    cases second with
    | finite negative' significand' exponent' narrowBelow' =>
      exact absurd hsame.symm (plainText_finite_ne (by simp))
    | infinite negative' => cases negative <;> cases negative' <;> revert hsame <;> decide
    | notANumber => cases negative <;> revert hsame <;> decide
  | notANumber =>
    cases second with
    | finite negative' significand' exponent' narrowBelow' =>
      exact absurd hsame.symm (plainText_finite_ne (by simp))
    | infinite negative' => cases negative' <;> revert hsame <;> decide
    | notANumber => rfl

/-- Doubles are told apart by their texts in messages. -/
theorem plainText_injective : Function.Injective fun value : Float => (ofFloat value).plainText :=
  fun first second hsame =>
    ofFloat_injective (eq_of_plainText_eq (canonical_ofFloat first) (canonical_ofFloat second) hsame)

/-! ### Low lines -/

/-- A low line does not stand in the text of an infinity. -/
theorem notMem_infinityText (negative : Bool) : '_' ∉ (infinityText negative).toList := by
  cases negative <;> decide

/-- A low line is not a character of a number. -/
theorem not_isPlainCharacter_lowLine : ¬Decimal.IsPlainCharacter '_' := by
  unfold Decimal.IsPlainCharacter
  decide

/-- A low line does not stand in the text of a value in messages. -/
theorem notMem_plainText (value : Binary) : '_' ∉ value.plainText.toList := by
  cases value with
  | finite negative significand exponent narrowBelow =>
    rw [plainText, String.toList_ofList]
    exact fun hmem => not_isPlainCharacter_lowLine (Decimal.isPlainCharacter_of_mem_plainChars hmem)
  | infinite negative => exact notMem_infinityText negative
  | notANumber => decide

/-- A low line does not stand in the text of a value with fixed places. -/
theorem notMem_fixedText (places : ℕ) (value : Binary) : '_' ∉ (value.fixedText places).toList := by
  cases value with
  | finite negative significand exponent narrowBelow =>
    rw [fixedText, String.toList_ofList]
    exact fun hmem => not_isPlainCharacter_lowLine (Decimal.isPlainCharacter_of_mem_fixedChars hmem)
  | infinite negative => exact notMem_infinityText negative
  | notANumber =>
    change '_' ∉ "NaN".toList
    decide

end PrivateFootage.Binary
