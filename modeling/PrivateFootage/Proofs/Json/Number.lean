import Mathlib
import PrivateFootage.Decimal.Layout
import PrivateFootage.Json.Parser
import PrivateFootage.Proofs.Decimal.Digits

/-!
# Numbers of documents are number literals

The format asks for a whole part without needless zeros in front, digits after a point, and digits in
an exponent. The digits of a natural number keep to this, and so does document notation for every
decimal, positional or with an exponent.
-/

namespace PrivateFootage.Json

open Decimal

/-- A run of at least one digit. -/
def IsDigits (characters : List Char) : Prop :=
  characters ≠ [] ∧ ∀ character ∈ characters, character.isDigit = true

/-- The whole part of a number literal: zero, or digits that do not start with a zero. -/
def IsWhole (characters : List Char) : Prop :=
  characters = ['0'] ∨ ∃ first rest, characters = first :: rest ∧ first ≠ '0' ∧ IsDigits characters

/-- The fraction of a number literal: none, or a point and digits. -/
def IsFraction (characters : List Char) : Prop :=
  characters = [] ∨ ∃ digits, characters = '.' :: digits ∧ IsDigits digits

/-- The exponent of a number literal: none, or its mark, a sign and digits. -/
def IsExponent (characters : List Char) : Prop :=
  characters = [] ∨ ∃ sign digits, characters = 'e' :: sign :: digits ∧ (sign = '+' ∨ sign = '-') ∧
    IsDigits digits

/-- The digits of a number are a run of digits. -/
theorem isDigits_digitChars (value : ℕ) : IsDigits (digitChars value) :=
  ⟨digitChars_ne_nil value, fun _ => isDigit_of_mem_digitChars⟩

/-- A run of digits is dropped up to the first character that is none. -/
theorem dropDigits?_append {digits rest : List Char} (hdigits : IsDigits digits)
    (hrest : ∀ character ∈ rest.head?, character.isDigit = false) :
    dropDigits? (digits ++ rest) = some rest := by
  obtain ⟨first, others, rfl⟩ := List.exists_cons_of_ne_nil hdigits.1
  have hdrop : (first :: others ++ rest).dropWhile Char.isDigit = rest := by
    rw [List.dropWhile_append_of_pos hdigits.2]
    cases rest with
    | nil => rfl
    | cons character rest => rw [List.dropWhile_cons, if_neg (by simp [hrest character rfl])]
  rw [List.cons_append, dropDigits?, if_pos (hdigits.2 first (List.mem_cons_self ..)),
    ← List.cons_append, hdrop]

/-- A whole part is dropped up to the first character that is no digit. -/
theorem dropWhole?_append {whole rest : List Char} (hwhole : IsWhole whole)
    (hrest : ∀ character ∈ rest.head?, character.isDigit = false) :
    dropWhole? (whole ++ rest) = some rest := by
  rcases hwhole with rfl | ⟨first, others, rfl, hfirst, hdigits⟩
  · rfl
  · rw [← dropDigits?_append hdigits hrest, List.cons_append, dropWhole?]
    intro _ hzero
    exact hfirst (List.cons.inj hzero).1

/-- An exponent starts with its mark. -/
theorem IsExponent.head {exponent : List Char} (hexponent : IsExponent exponent) :
    ∀ character ∈ exponent.head?, character = 'e' := by
  rcases hexponent with rfl | ⟨sign, digits, rfl, -⟩ <;> simp

/-- The mark of an exponent is no digit. -/
theorem IsExponent.head_isDigit {exponent : List Char} (hexponent : IsExponent exponent) :
    ∀ character ∈ exponent.head?, character.isDigit = false := by
  intro character hcharacter
  rw [hexponent.head character hcharacter]
  decide

/-- A fraction is dropped up to the exponent. -/
theorem dropFraction?_append {fraction exponent : List Char} (hfraction : IsFraction fraction)
    (hexponent : IsExponent exponent) : dropFraction? (fraction ++ exponent) = some exponent := by
  rcases hfraction with rfl | ⟨digits, rfl, hdigits⟩
  · rw [List.nil_append, dropFraction?]
    rintro rest rfl
    exact absurd (hexponent.head '.' rfl) (by decide)
  · rw [List.cons_append, dropFraction?, dropDigits?_append hdigits hexponent.head_isDigit]

/-- An exponent is dropped. -/
theorem dropExponent?_eq_nil {exponent : List Char} (hexponent : IsExponent exponent) :
    dropExponent? exponent = some [] := by
  rcases hexponent with rfl | ⟨sign, digits, rfl, hsign, hdigits⟩
  · rfl
  · have hdrop : dropDigits? (digits ++ []) = some [] := dropDigits?_append hdigits (by simp)
    rw [List.append_nil] at hdrop
    rcases hsign with rfl | rfl <;> simpa [dropExponent?] using hdrop

/-- A sign, a whole part, an optional fraction and an optional exponent make a number literal. -/
theorem isNumber_signed (negative : Bool) {whole fraction exponent : List Char}
    (hwhole : IsWhole whole) (hfraction : IsFraction fraction) (hexponent : IsExponent exponent) :
    isNumber (signed negative (whole ++ fraction ++ exponent)) = true := by
  have hafter : ∀ character ∈ (fraction ++ exponent).head?, character.isDigit = false := by
    rcases hfraction with rfl | ⟨digits, rfl, -⟩
    · exact hexponent.head_isDigit
    · simp
  have hunsigned : ((dropWhole? (whole ++ fraction ++ exponent)).bind dropFraction?).bind
      dropExponent? = some [] := by
    rw [List.append_assoc, dropWhole?_append hwhole hafter, Option.bind_some,
      dropFraction?_append hfraction hexponent, Option.bind_some, dropExponent?_eq_nil hexponent]
  unfold isNumber
  rw [decide_eq_true_eq]
  cases negative with
  | true => exact hunsigned
  | false =>
    -- The first character is a digit, so the literal is not taken for one with a sign.
    have hfirst : ∀ rest, whole ++ fraction ++ exponent ≠ '-' :: rest := by
      intro rest h
      rcases hwhole with rfl | ⟨first, others, rfl, -, hdigits⟩
      · cases h
      · have hdigit := hdigits.2 first (List.mem_cons_self ..)
        rw [(List.cons.inj h).1] at hdigit
        exact absurd hdigit (by decide)
    rw [signed, if_neg Bool.false_ne_true]
    split
    · next rest h => exact absurd h (hfirst rest)
    · exact hunsigned

/-- The digits of a number are a whole part: zero, or digits that do not start with a zero. -/
theorem isWhole_digitChars (value : ℕ) : IsWhole (digitChars value) := by
  by_cases hzero : value = 0
  · rw [hzero]
    exact .inl rfl
  · obtain ⟨first, rest, hchars, hfirst⟩ := digitChars_eq_cons hzero
    exact .inr ⟨first, rest, hchars, hfirst, isDigits_digitChars value⟩

/-- The digits of a natural number are a number literal. -/
theorem isNumber_digitChars (value : ℕ) : isNumber (digitChars value) = true := by
  have hnumber := isNumber_signed false (isWhole_digitChars value) (.inl rfl) (.inl rfl)
  rwa [List.append_nil, List.append_nil] at hnumber

/-- Zeros are digits. -/
theorem isDigit_of_mem_replicate_zero {count : ℕ} {character : Char}
    (hcharacter : character ∈ List.replicate count '0') : character.isDigit = true := by
  rw [List.eq_of_mem_replicate hcharacter]
  decide

/-- The first digits of a number that does not start with a zero do not start with one either. -/
theorem isWhole_take {first : Char} {rest : List Char} (hfirst : first ≠ '0')
    (hdigits : ∀ character ∈ first :: rest, character.isDigit = true) (count : ℕ) :
    IsWhole ((first :: rest).take (count + 1)) := by
  rw [List.take_succ_cons]
  refine .inr ⟨first, rest.take count, rfl, hfirst, by simp, ?_⟩
  intro character hcharacter
  exact hdigits character ((List.take_sublist (count + 1) (first :: rest)).subset hcharacter)

/-- A positive number in positional notation has a proper whole part, and after it either no places,
for a whole number of units, or at least one. -/
theorem positional_isWhole {digits : ℕ} (hdigits : digits ≠ 0) (exponent : ℤ) :
    IsWhole (positional digits exponent).1 ∧
      ((positional digits exponent).2 = [] ∨ IsDigits (positional digits exponent).2) := by
  obtain ⟨first, rest, hchars, hfirst⟩ := digitChars_eq_cons hdigits
  have hall : ∀ character ∈ digitChars digits, character.isDigit = true :=
    fun _ => isDigit_of_mem_digitChars
  unfold positional
  dsimp only
  by_cases hexponent : 0 ≤ exponent
  · rw [if_pos hexponent]
    refine ⟨.inr ⟨first, rest ++ List.replicate exponent.toNat '0', ?_, hfirst, ?_, ?_⟩, .inl rfl⟩
    · rw [hchars, List.cons_append]
    · simp [hchars]
    · exact List.forall_mem_append.mpr ⟨hall, fun _ => isDigit_of_mem_replicate_zero⟩
  · rw [if_neg hexponent]
    obtain ⟨places, hplaces, hpos⟩ : ∃ places, (-exponent).toNat = places ∧ 0 < places :=
      ⟨_, rfl, by omega⟩
    rw [hplaces]
    dsimp only
    have hpadded : ∀ character ∈ List.replicate (places + 1 - (digitChars digits).length) '0' ++
        digitChars digits, character.isDigit = true :=
      List.forall_mem_append.mpr ⟨fun _ => isDigit_of_mem_replicate_zero, hall⟩
    refine ⟨?_, .inr ⟨?_, fun character hcharacter => hpadded character (List.mem_of_mem_drop hcharacter)⟩⟩
    · by_cases hlong : places < (digitChars digits).length
      · have hnone : places + 1 - (digitChars digits).length = 0 := by omega
        obtain ⟨kept, hkept⟩ : ∃ kept, (digitChars digits).length - places = kept + 1 :=
          ⟨(digitChars digits).length - places - 1, by omega⟩
        rw [hnone, List.replicate_zero, List.nil_append, hkept, hchars]
        exact isWhole_take hfirst (hchars ▸ hall) kept
      · have hlength : (List.replicate (places + 1 - (digitChars digits).length) '0' ++
            digitChars digits).length - places = 1 := by
          rw [List.length_append, List.length_replicate]
          omega
        obtain ⟨zeros, hzeros⟩ : ∃ zeros, places + 1 - (digitChars digits).length = zeros + 1 :=
          ⟨places - (digitChars digits).length, by omega⟩
        rw [hlength, hzeros]
        exact .inl rfl
    · apply List.ne_nil_of_length_pos
      rw [List.length_drop, List.length_append, List.length_replicate]
      omega

/-- Document notation of a decimal is a number literal. -/
theorem isNumber_documentChars (value : Decimal) : isNumber value.documentChars = true := by
  unfold documentChars
  split
  · cases value.negative <;> decide
  · next hdigits =>
    dsimp only
    split
    · obtain ⟨hwhole, hplaces⟩ := positional_isWhole hdigits value.exponent
      have hfraction : IsDigits (if (positional value.digits value.exponent).2.isEmpty then ['0']
          else (positional value.digits value.exponent).2) := by
        rcases hplaces with hempty | hplaces
        · rw [hempty, List.isEmpty_nil, if_pos rfl]
          exact ⟨by simp, List.forall_mem_singleton.mpr (by decide)⟩
        · rw [if_neg (by simpa using hplaces.1)]
          exact hplaces
      have hnumber := isNumber_signed value.negative hwhole (.inr ⟨_, rfl, hfraction⟩) (.inl rfl)
      rwa [List.append_nil] at hnumber
    · obtain ⟨first, rest, hchars, hfirst⟩ := digitChars_eq_cons hdigits
      have hall := (isDigits_digitChars value.digits).2
      rw [hchars, List.forall_mem_cons] at hall
      have hwhole : IsWhole [first] :=
        .inr ⟨first, [], rfl, hfirst, by simp, by simpa using hall.1⟩
      have hexponent : ∀ leading : ℤ,
          IsExponent ('e' :: (if leading < 0 then '-' else '+') :: digitChars leading.natAbs) := by
        intro leading
        refine .inr ⟨_, _, rfl, ?_, isDigits_digitChars _⟩
        split_ifs <;> simp
      rw [hchars]
      cases rest with
      | nil => exact isNumber_signed value.negative hwhole (.inl rfl) (hexponent _)
      | cons second rest =>
        exact isNumber_signed value.negative hwhole (.inr ⟨second :: rest, rfl, by simp, hall.2⟩)
          (hexponent _)

end PrivateFootage.Json
