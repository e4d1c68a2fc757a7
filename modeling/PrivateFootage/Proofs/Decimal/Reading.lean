import Mathlib
import PrivateFootage.Decimal.Reading
import PrivateFootage.Proofs.Decimal.Layout

/-!
# Numbers of documents are read back

Document notation is a sign, digits with at most one point, and at most one power of ten. Reading takes
these apart again, so that the decimal that is read has the sign and the magnitude of the one that was
written. Its digits and its exponent may differ: a whole number is written with one place.
-/

namespace PrivateFootage.Decimal

variable {whole places rest : List Char}

/-- A run of digits is taken off up to the first character that is none. -/
theorem takeWhile_digits (hwhole : ∀ character ∈ whole, character.isDigit = true)
    (hrest : ∀ character ∈ rest.head?, character.isDigit = false) :
    (whole ++ rest).takeWhile isDigit = whole ∧ (whole ++ rest).dropWhile isDigit = rest := by
  have hsame : isDigit = Char.isDigit := funext isDigit_eq
  rw [hsame, List.takeWhile_append_of_pos hwhole, List.dropWhile_append_of_pos hwhole]
  cases rest with
  | nil => simp
  | cons character rest => simp [hrest character rfl]

/-- Reading digits after others goes on from the value of these. -/
theorem readDigits_append (whole places : List Char) :
    readDigits (whole ++ places) 0 = readDigits places (readDigits whole 0) :=
  List.foldl_append

/-- What may follow the digits of a number: nothing, or the mark of an exponent and the exponent. -/
def IsPower (characters : List Char) (exponent : ℤ) : Prop :=
  characters = [] ∧ exponent = 0 ∨ ∃ power, characters = 'e' :: power ∧ readExponent? power = some exponent

/-- Digits with at most one point and at most one power of ten are read. -/
theorem readUnsigned?_pointChars {exponent : ℤ} (negative : Bool) (hne : whole ≠ [])
    (hwhole : ∀ character ∈ whole, character.isDigit = true)
    (hplaces : ∀ character ∈ places, character.isDigit = true) (hrest : IsPower rest exponent) :
    readUnsigned? negative (pointChars whole places ++ rest) =
      some ⟨negative, readDigits (whole ++ places) 0, exponent - places.length⟩ := by
  have hhead : ∀ character ∈ rest.head?, character = 'e' := by
    rcases hrest with ⟨rfl, -⟩ | ⟨power, rfl, -⟩ <;> simp
  have hdigit : ∀ character ∈ rest.head?, character.isDigit = false := by
    intro character hcharacter
    rw [hhead character hcharacter]
    decide
  have hempty : whole.isEmpty = false := by simpa using hne
  rw [readDigits_append]
  unfold pointChars
  split_ifs with hnone
  · rw [List.isEmpty_iff] at hnone
    subst hnone
    obtain ⟨htake, hdrop⟩ := takeWhile_digits hwhole hdigit
    unfold readUnsigned?
    rw [htake, hdrop]
    rcases hrest with ⟨rfl, rfl⟩ | ⟨power, rfl, hpower⟩
    · simp [hempty]
    · simp [hempty, hpower]
  · have hpoint : ∀ character ∈ ('.' :: (places ++ rest)).head?, character.isDigit = false := by simp
    obtain ⟨htake, hdrop⟩ := takeWhile_digits hwhole hpoint
    obtain ⟨htakePlaces, hdropPlaces⟩ := takeWhile_digits hplaces hdigit
    unfold readUnsigned?
    rw [List.append_assoc, List.cons_append, htake, hdrop]
    simp only [htakePlaces, hdropPlaces]
    rcases hrest with ⟨rfl, rfl⟩ | ⟨power, rfl, hpower⟩
    · simp [hempty]
    · simp [hempty, hpower]

/-- A power of ten is read back. -/
theorem readExponent?_digitChars (power : ℤ) :
    readExponent? ((if power < 0 then '-' else '+') :: digitChars power.natAbs) = some power := by
  have hempty : (digitChars power.natAbs).isEmpty = false := by simpa using digitChars_ne_nil _
  unfold readExponent?
  split_ifs with hsign
  · have hvalue : -(power.natAbs : ℤ) = power := by omega
    simp only [all_isDigit_digitChars, hempty, readDigits_digitChars, hvalue, Bool.not_true, Bool.or_self,
      Bool.false_eq_true, if_false, if_true]
  · have hvalue : (power.natAbs : ℤ) = power := by omega
    simp only [all_isDigit_digitChars, hempty, readDigits_digitChars, hvalue, Bool.not_true, Bool.or_self,
      Bool.false_eq_true, if_false]

/-- A sign in front of a digit is split off. -/
theorem splitSign_signed (negative : Bool) {text : List Char} (hne : text ≠ [])
    (htext : ∀ character ∈ text.head?, character.isDigit = true) :
    splitSign (signed negative text) = (negative, text) := by
  cases negative with
  | true => rfl
  | false =>
    obtain ⟨first, rest, rfl⟩ := List.exists_cons_of_ne_nil hne
    have hfirst : first.isDigit = true := htext first rfl
    rw [signed, if_neg Bool.false_ne_true, splitSign]
    · rintro rest ⟨⟩
      exact absurd hfirst (by decide)
    · rintro rest ⟨⟩
      exact absurd hfirst (by decide)

/-- A text without a sign that stands for a number: digits with at most one point, and at most one power
of ten. -/
def IsNumeral (text : List Char) (value : ℚ) : Prop :=
  ∃ whole places rest exponent, text = pointChars whole places ++ rest ∧ whole ≠ [] ∧
    (∀ character ∈ whole, character.isDigit = true) ∧ (∀ character ∈ places, character.isDigit = true) ∧
    IsPower rest exponent ∧ pointValue whole places * 10 ^ exponent = value

/-- A numeral starts with a digit. -/
theorem IsNumeral.head {text : List Char} {value : ℚ} (htext : IsNumeral text value) :
    text ≠ [] ∧ ∀ character ∈ text.head?, character.isDigit = true := by
  obtain ⟨whole, places, rest, exponent, rfl, hne, hwhole, -⟩ := htext
  obtain ⟨first, others, rfl⟩ := List.exists_cons_of_ne_nil hne
  have hfirst := hwhole first List.mem_cons_self
  unfold pointChars
  split_ifs <;> simpa using hfirst

/-- A numeral is read as the number that it stands for. -/
theorem IsNumeral.readUnsigned? {text : List Char} {value : ℚ} (htext : IsNumeral text value)
    (negative : Bool) :
    ∃ digits exponent, Decimal.readUnsigned? negative text = some ⟨negative, digits, exponent⟩ ∧
      (digits : ℚ) * 10 ^ exponent = value := by
  obtain ⟨whole, places, rest, exponent, rfl, hne, hwhole, hplaces, hrest, rfl⟩ := htext
  refine ⟨_, _, readUnsigned?_pointChars negative hne hwhole hplaces hrest, ?_⟩
  rw [pointValue, mul_assoc, ← zpow_add₀ (by norm_num), sub_eq_neg_add]

/-- There is a digit before the point of a positional text. -/
theorem positional_whole_ne_nil (digits : ℕ) (exponent : ℤ) : (positional digits exponent).1 ≠ [] := by
  have hlength := List.length_pos_iff.mpr (digitChars_ne_nil digits)
  unfold positional
  dsimp only
  split_ifs
  · simpa using fun hempty => absurd hempty (digitChars_ne_nil digits)
  · apply List.ne_nil_of_length_pos
    rw [List.length_take, List.length_append, List.length_replicate]
    omega

/-- Positional notation with at least one place is a numeral. -/
theorem isNumeral_positional (digits : ℕ) (exponent : ℤ) :
    IsNumeral ((positional digits exponent).1 ++ '.' ::
      (if (positional digits exponent).2.isEmpty then ['0'] else (positional digits exponent).2))
      (digits * 10 ^ exponent) := by
  have hvalue := pointValue_positional digits exponent
  have hne := positional_whole_ne_nil digits exponent
  have hwhole : ∀ character ∈ (positional digits exponent).1, character.isDigit = true :=
    fun character hmem => isDigit_of_mem_positional (.inl hmem)
  have hplaces : ∀ character ∈ (positional digits exponent).2, character.isDigit = true :=
    fun character hmem => isDigit_of_mem_positional (.inr hmem)
  split_ifs with hempty
  · rw [List.isEmpty_iff] at hempty
    refine ⟨_, ['0'], [], 0, (List.append_nil _).symm, hne, hwhole, by simp, .inl ⟨rfl, rfl⟩, ?_⟩
    rw [hempty] at hvalue
    rw [← hvalue, pointValue, pointValue, readDigits_append, List.append_nil, zpow_zero, mul_one]
    simp [readDigits, digitValue]
    ring
  · refine ⟨_, _, [], 0, ?_, hne, hwhole, hplaces, .inl ⟨rfl, rfl⟩, by rw [hvalue, zpow_zero, mul_one]⟩
    rw [pointChars, if_neg hempty, List.append_nil]

/-- Digits with a point after the first, and the power of ten of the first, are a numeral. -/
theorem isNumeral_scientific {digits : ℕ} {first : Char} {rest : List Char} (exponent : ℤ)
    (hdigits : digitChars digits = first :: rest) :
    IsNumeral (pointChars [first] rest ++ 'e' ::
      (if exponent + rest.length < 0 then '-' else '+') :: digitChars (exponent + rest.length).natAbs)
      (digits * 10 ^ exponent) := by
  have hall : ∀ character ∈ first :: rest, character.isDigit = true :=
    fun character hmem => isDigit_of_mem_digitChars (hdigits ▸ hmem)
  have hread : readDigits (first :: rest) 0 = digits := hdigits ▸ readDigits_digitChars digits
  refine ⟨[first], rest, _, exponent + rest.length, rfl, by simp, ?_, ?_,
    .inr ⟨_, rfl, readExponent?_digitChars _⟩, ?_⟩
  · exact List.forall_mem_singleton.mpr (hall first List.mem_cons_self)
  · exact fun character hmem => hall character (List.mem_cons_of_mem _ hmem)
  · rw [pointValue, List.singleton_append, hread, mul_assoc, ← zpow_add₀ (by norm_num)]
    congr 2
    ring

/-- Document notation is a sign and a numeral for the magnitude. -/
theorem documentChars_eq (value : Decimal) :
    ∃ text, value.documentChars = signed value.negative text ∧ IsNumeral text value.magnitude := by
  unfold documentChars magnitude
  split
  · next hzero =>
    refine ⟨_, rfl, ['0'], ['0'], [], 0, rfl, by simp, by simp, by simp, .inl ⟨rfl, rfl⟩, ?_⟩
    rw [hzero]
    simp [pointValue, readDigits, digitValue]
  · next hdigits =>
    obtain ⟨first, rest, hchars, -⟩ := digitChars_eq_cons hdigits
    dsimp only
    split
    · exact ⟨_, rfl, isNumeral_positional _ _⟩
    · refine ⟨_, rfl, ?_⟩
      have hnumeral := isNumeral_scientific value.exponent hchars
      have hleading : value.exponent + (digitChars value.digits).length - 1 = value.exponent + rest.length := by
        rw [hchars, List.length_cons]
        push_cast
        ring
      rw [hleading, hchars]
      cases rest with
      | nil => exact hnumeral
      | cons second rest => exact hnumeral

/-- A decimal is read back from document notation with its sign and its magnitude. -/
theorem read_documentChars (value : Decimal) :
    ∃ read, readUnsigned? (splitSign value.documentChars).1 (splitSign value.documentChars).2 = some read ∧
      read.negative = value.negative ∧ read.magnitude = value.magnitude := by
  obtain ⟨text, htext, hnumeral⟩ := documentChars_eq value
  obtain ⟨digits, exponent, hread, hvalue⟩ := hnumeral.readUnsigned? value.negative
  rw [htext, splitSign_signed value.negative hnumeral.head.1 hnumeral.head.2]
  exact ⟨_, hread, rfl, hvalue⟩

end PrivateFootage.Decimal
