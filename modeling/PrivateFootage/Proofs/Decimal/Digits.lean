import Mathlib
import PrivateFootage.Decimal.Basic

/-!
# Digits of natural numbers

The digits of a number are read back as the number, also with zeros in front, and only zero has a zero
as its first digit. How many digits there are tells the powers of ten around the number.
-/

namespace PrivateFootage.Decimal

/-- Reading digits is evaluating them in base ten. -/
theorem readDigits_eq (characters : List Char) (start : ℕ) :
    readDigits characters start = Nat.ofDigitChars 10 characters start :=
  Nat.ofDigitChars_eq_foldl.symm

/-- A number is read back from its digits, whatever zeros stand in front of them. -/
@[simp] theorem readDigits_padded (zeros value : ℕ) :
    readDigits (List.replicate zeros '0' ++ digitChars value) 0 = value := by
  rw [readDigits_eq, Nat.ofDigitChars_append, Nat.ofDigitChars_replicate_zero, Nat.mul_zero]
  exact Nat.ofDigitChars_ten_toDigits

/-- A number is read back from its digits. -/
theorem readDigits_digitChars (value : ℕ) : readDigits (digitChars value) 0 = value :=
  readDigits_padded 0 value

/-- Different numbers have different digits. -/
theorem digitChars_injective : Function.Injective digitChars := by
  intro first second h
  have hread := congrArg (readDigits · 0) h
  simpa [readDigits_eq, digitChars] using hread

/-- The two tests for digits agree. -/
theorem isDigit_eq (character : Char) : isDigit character = character.isDigit := by
  rw [isDigit, Char.isDigit, Bool.eq_iff_iff, Bool.and_eq_true, Bool.and_eq_true, decide_eq_true_eq,
    decide_eq_true_eq, decide_eq_true_eq, decide_eq_true_eq]
  rfl

/-- A number has at least one digit. -/
theorem digitChars_ne_nil (value : ℕ) : digitChars value ≠ [] :=
  Nat.toDigits_ne_nil

/-- The digits of a number are digits. -/
theorem isDigit_of_mem_digitChars {value : ℕ} {character : Char}
    (hcharacter : character ∈ digitChars value) : character.isDigit = true :=
  Nat.isDigit_of_mem_toDigits (by decide) (by decide) hcharacter

/-- The digits of a number pass the test for digits. -/
theorem all_isDigit_digitChars (value : ℕ) : (digitChars value).all isDigit = true := by
  rw [List.all_eq_true]
  intro character hcharacter
  rw [isDigit_eq, isDigit_of_mem_digitChars hcharacter]

/-- A character that is no digit is not among the digits of a number. -/
theorem notMem_digitChars {character : Char} (hother : character.isDigit = false) (value : ℕ) :
    character ∉ digitChars value := by
  intro hmem
  rw [isDigit_of_mem_digitChars hmem] at hother
  cases hother

/-- Only zero has a zero as its first digit. -/
theorem digitChars_eq_cons {value : ℕ} (hvalue : value ≠ 0) :
    ∃ first rest, digitChars value = first :: rest ∧ first ≠ '0' := by
  induction value using Nat.strong_induction_on with
  | _ value ih =>
    rw [digitChars, Nat.toDigits_eq_if (by decide)]
    split
    · next hlt =>
      refine ⟨_, [], rfl, ?_⟩
      have hall : ∀ digit < 10, digit ≠ 0 → Nat.digitChar digit ≠ '0' := by decide
      exact hall value hlt hvalue
    · next hge =>
      obtain ⟨first, rest, hdigits, hfirst⟩ := ih (value / 10) (by omega) (by omega)
      rw [digitChars] at hdigits
      exact ⟨first, rest ++ [(value % 10).digitChar], by rw [hdigits, List.cons_append], hfirst⟩

/-- A number is below the power of ten that its digits tell. -/
theorem lt_pow_digitCount (value : ℕ) : value < 10 ^ digitCount value :=
  (Nat.length_toDigits_le_iff (by decide) Nat.length_toDigits_pos).mp le_rfl

/-- A positive number is not below the power of ten that its first digit stands for. -/
theorem pow_le_of_digitCount {value : ℕ} (hvalue : 0 < value) : 10 ^ (digitCount value - 1) ≤ value := by
  by_contra hless
  rcases Nat.eq_zero_or_pos (digitCount value - 1) with hone | hmore
  · rw [hone] at hless
    omega
  · have hshorter := (Nat.length_toDigits_le_iff (by decide) hmore).mpr (not_le.mp hless)
    change digitCount value ≤ digitCount value - 1 at hshorter
    omega

/-- A number has no more decimal digits than binary ones. -/
theorem digitCount_le_log2 (value : ℕ) : digitCount value ≤ value.log2 + 1 := by
  have hbits : value < 10 ^ (value.log2 + 1) :=
    Nat.lt_log2_self.trans_le (Nat.pow_le_pow_left (by decide) _)
  exact (Nat.length_toDigits_le_iff (by decide) (Nat.succ_pos _)).mpr hbits

end PrivateFootage.Decimal
