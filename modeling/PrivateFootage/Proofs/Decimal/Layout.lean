import Mathlib
import PrivateFootage.Decimal.Layout
import PrivateFootage.Proofs.Decimal.Digits
import PrivateFootage.Proofs.Text.Split

/-!
# Positional texts stand for one number

The digits before and after the point of a positional text give the number back, so two decimals with
the same text have the same sign and the same magnitude. Such a text holds digits, a point and a sign
and nothing else.
-/

namespace PrivateFootage.Decimal

/-- The magnitude of a decimal. -/
def magnitude (value : Decimal) : ℚ := value.digits * 10 ^ value.exponent

/-- The digits of a positional text are those of the decimal with zeros around them. -/
theorem isDigit_of_mem_positional {digits : ℕ} {exponent : ℤ} {character : Char}
    (hcharacter : character ∈ (positional digits exponent).1 ∨ character ∈ (positional digits exponent).2) :
    character.isDigit = true := by
  have hpadded : ∀ zeros, (character ∈ List.replicate zeros '0' ++ digitChars digits ∨
      character ∈ digitChars digits ++ List.replicate zeros '0') → character.isDigit = true := by
    intro zeros hmem
    simp only [List.mem_append, List.mem_replicate] at hmem
    rcases hmem with (⟨-, rfl⟩ | hmem) | (hmem | ⟨-, rfl⟩)
    · decide
    · exact isDigit_of_mem_digitChars hmem
    · exact isDigit_of_mem_digitChars hmem
    · decide
  unfold positional at hcharacter
  dsimp only at hcharacter
  split_ifs at hcharacter
  · exact hpadded _ (.inr (hcharacter.resolve_right List.not_mem_nil))
  · exact hpadded _ (.inl (hcharacter.elim List.mem_of_mem_take List.mem_of_mem_drop))

/-- The number that the digits before and after a point stand for. -/
def pointValue (whole places : List Char) : ℚ :=
  readDigits (whole ++ places) 0 * 10 ^ (-places.length : ℤ)

/-- The digits before and after the point give the magnitude. -/
theorem pointValue_positional (digits : ℕ) (exponent : ℤ) :
    pointValue (positional digits exponent).1 (positional digits exponent).2 = digits * 10 ^ exponent := by
  unfold positional pointValue
  dsimp only
  split_ifs with hsign
  · obtain ⟨zeros, rfl⟩ := Int.eq_ofNat_of_zero_le hsign
    rw [List.append_nil, readDigits_eq, Nat.ofDigitChars_append, digitChars, Nat.ofDigitChars_ten_toDigits,
      Int.toNat_natCast, Nat.ofDigitChars_replicate_zero]
    push_cast
    simp [mul_comm]
  · obtain ⟨places, hplaces⟩ : ∃ places : ℕ, exponent = -places := ⟨(-exponent).toNat, by omega⟩
    have hlength : (List.replicate (places + 1 - (digitChars digits).length) '0' ++
        digitChars digits).length - ((List.replicate (places + 1 - (digitChars digits).length) '0' ++
          digitChars digits).length - places) = places := by
      rw [List.length_append, List.length_replicate]
      omega
    rw [hplaces, neg_neg, Int.toNat_natCast, List.take_append_drop, readDigits_padded, List.length_drop,
      hlength]

/-- The text of the digits before and after the point, without a point if nothing is after it. -/
def pointChars (whole places : List Char) : List Char :=
  if places.isEmpty then whole else whole ++ '.' :: places

/-- The digits before and after the point are read off the text. -/
theorem pointChars_injective {whole places whole' places' : List Char}
    (hwhole : '.' ∉ whole) (hplaces : '.' ∉ places) (hwhole' : '.' ∉ whole') (hplaces' : '.' ∉ places')
    (hsame : pointChars whole places = pointChars whole' places') : whole = whole' ∧ places = places' := by
  have hpieces : ∀ {whole places : List Char}, '.' ∉ whole → '.' ∉ places →
      Text.split '.' (pointChars whole places) = if places.isEmpty then [whole] else [whole, places] := by
    intro whole places hwhole hplaces
    unfold pointChars
    split_ifs
    · exact Text.split_of_notMem hwhole
    · rw [Text.split_append, Text.split_of_notMem hwhole, Text.split_of_notMem hplaces,
        List.singleton_append]
  have hsplit := congrArg (Text.split '.') hsame
  rw [hpieces hwhole hplaces, hpieces hwhole' hplaces'] at hsplit
  split_ifs at hsplit with hempty hempty'
  · rw [List.isEmpty_iff] at hempty hempty'
    exact ⟨List.singleton_inj.mp hsplit, hempty.trans hempty'.symm⟩
  · cases hsplit
  · cases hsplit
  · simpa using hsplit

/-- A sign and a magnitude are read off a signed text. -/
theorem signed_injective {negative negative' : Bool} {text text' : List Char} (htext : '-' ∉ text)
    (htext' : '-' ∉ text') (hsame : signed negative text = signed negative' text') :
    negative = negative' ∧ text = text' := by
  cases negative with
  | true =>
    cases negative' with
    | true => exact ⟨rfl, (List.cons.inj hsame).2⟩
    | false =>
      have hsame : '-' :: text = text' := hsame
      exact absurd (hsame ▸ List.mem_cons_self) htext'
  | false =>
    cases negative' with
    | true =>
      have hsame : text = '-' :: text' := hsame
      exact absurd (hsame ▸ List.mem_cons_self) htext
    | false => exact ⟨rfl, hsame⟩

/-- The parts of a positional text with a point between them hold digits and the point. -/
theorem isDigit_of_mem_parts {digits : ℕ} {exponent : ℤ} {character : Char}
    (hcharacter : character ∈
      (positional digits exponent).1 ++ '.' :: (positional digits exponent).2) :
    character.isDigit = true ∨ character = '.' := by
  rcases List.mem_append.mp hcharacter with hwhole | hrest
  · exact .inl (isDigit_of_mem_positional (.inl hwhole))
  · rcases List.mem_cons.mp hrest with rfl | hplaces
    · exact .inr rfl
    · exact .inl (isDigit_of_mem_positional (.inr hplaces))

/-- The characters of a positional text without its sign are digits and a point. -/
theorem isDigit_of_mem_pointChars {digits : ℕ} {exponent : ℤ} {character : Char}
    (hcharacter : character ∈
      pointChars (positional digits exponent).1 (positional digits exponent).2) :
    character.isDigit = true ∨ character = '.' := by
  unfold pointChars at hcharacter
  split_ifs at hcharacter
  · exact .inl (isDigit_of_mem_positional (.inl hcharacter))
  · exact isDigit_of_mem_parts hcharacter

/-- A character that is no digit is in neither part of a positional text. -/
theorem notMem_positional {character : Char} (hother : character.isDigit = false) (digits : ℕ)
    (exponent : ℤ) :
    character ∉ (positional digits exponent).1 ∧ character ∉ (positional digits exponent).2 := by
  constructor
  · intro hmem
    rw [isDigit_of_mem_positional (.inl hmem)] at hother
    cases hother
  · intro hmem
    rw [isDigit_of_mem_positional (.inr hmem)] at hother
    cases hother

/-- The text of a decimal in messages is its sign and the positional text of its magnitude. -/
theorem plainChars_eq (value : Decimal) :
    ∃ exponent, plainChars value = signed value.negative
        (pointChars (positional value.digits exponent).1 (positional value.digits exponent).2) ∧
      value.digits * (10 : ℚ) ^ exponent = value.magnitude := by
  refine ⟨if value.digits = 0 then 0 else value.exponent, rfl, ?_⟩
  rw [magnitude]
  split_ifs with hzero
  · rw [hzero, Nat.cast_zero, zero_mul, zero_mul]
  · rfl

/-- Decimals with the same text in messages have the same sign and the same magnitude. -/
theorem eq_of_plainChars_eq {first second : Decimal} (hsame : first.plainChars = second.plainChars) :
    first.negative = second.negative ∧ first.magnitude = second.magnitude := by
  obtain ⟨exponent, hfirst, hvalue⟩ := plainChars_eq first
  obtain ⟨exponent', hsecond, hvalue'⟩ := plainChars_eq second
  have hminus : ∀ digits exponent,
      '-' ∉ pointChars (positional digits exponent).1 (positional digits exponent).2 := by
    intro digits exponent hmem
    rcases isDigit_of_mem_pointChars hmem with hdigit | hpoint
    · exact absurd hdigit (by decide)
    · exact absurd hpoint (by decide)
  rw [hfirst, hsecond] at hsame
  obtain ⟨hsign, htext⟩ := signed_injective (hminus _ _) (hminus _ _) hsame
  have hpoint : ('.').isDigit = false := by decide
  obtain ⟨hwhole, hplaces⟩ := notMem_positional hpoint first.digits exponent
  obtain ⟨hwhole', hplaces'⟩ := notMem_positional hpoint second.digits exponent'
  obtain ⟨hwholes, hparts⟩ := pointChars_injective hwhole hplaces hwhole' hplaces' htext
  refine ⟨hsign, ?_⟩
  rw [← hvalue, ← hvalue', ← pointValue_positional, ← pointValue_positional, hwholes, hparts]

/-- The characters of numbers without exponents: digits, a point and a sign. -/
def IsPlainCharacter (character : Char) : Prop :=
  character.isDigit = true ∨ character = '.' ∨ character = '-'

/-- Signs are plain. -/
theorem isPlainCharacter_of_mem_signed {negative : Bool} {text : List Char} {character : Char}
    (htext : ∀ character ∈ text, IsPlainCharacter character)
    (hcharacter : character ∈ signed negative text) : IsPlainCharacter character := by
  unfold signed at hcharacter
  split_ifs at hcharacter
  · rcases List.mem_cons.mp hcharacter with rfl | hmem
    · exact .inr (.inr rfl)
    · exact htext character hmem
  · exact htext character hcharacter

/-- The text of a decimal in messages is plain. -/
theorem isPlainCharacter_of_mem_plainChars {value : Decimal} {character : Char}
    (hcharacter : character ∈ value.plainChars) : IsPlainCharacter character := by
  obtain ⟨exponent, htext, -⟩ := plainChars_eq value
  rw [htext] at hcharacter
  refine isPlainCharacter_of_mem_signed (fun character hmem => ?_) hcharacter
  exact (isDigit_of_mem_pointChars hmem).imp id .inl

/-- The text of a decimal with fixed places is plain. -/
theorem isPlainCharacter_of_mem_fixedChars {negative : Bool} {units places : ℕ} {character : Char}
    (hcharacter : character ∈ fixedChars negative units places) : IsPlainCharacter character := by
  unfold fixedChars at hcharacter
  refine isPlainCharacter_of_mem_signed (fun character hmem => ?_) hcharacter
  split_ifs at hmem
  · exact .inl (isDigit_of_mem_positional (.inl hmem))
  · exact (isDigit_of_mem_parts hmem).imp id .inl

end PrivateFootage.Decimal
