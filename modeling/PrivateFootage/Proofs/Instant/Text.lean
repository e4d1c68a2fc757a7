import Mathlib
import PrivateFootage.Proofs.Decimal.Digits
import PrivateFootage.Proofs.Instant.Calendar

/-!
# Instants are read back from their written form

The parts of a written instant are runs of digits of known width with marks between them, and no part
starts with a blank. So reading finds each part whole, and the date and the time of day add up to the
instant again.
-/

namespace PrivateFootage.Instant

open Decimal

/-- An instant that can be written: its year has a written form that is read, and only the last second
of a minute counts more than a thousand million nanoseconds. -/
structure Valid (instant : Instant) : Prop where
  year_ge : -262143 ≤ (dateOfDays (instant.seconds / 86400)).1
  year_le : (dateOfDays (instant.seconds / 86400)).1 ≤ 262142
  nanoseconds_lt : instant.nanoseconds < 2000000000
  leap_second : 1000000000 ≤ instant.nanoseconds → instant.seconds % 60 = 59

/-! ### Runs of digits -/

/-- No digit is a blank. -/
theorem isBlank_of_isDigit {character : Char} (hdigit : character.isDigit = true) :
    Text.isBlank character = false := by
  have hrange : 48 ≤ character.toNat ∧ character.toNat ≤ 57 := by
    simpa [Char.isDigit, UInt32.le_iff_toNat_le] using hdigit
  simp [Text.isBlank, Text.blankRanges]
  omega

/-- A padded number consists of digits. -/
theorem isDigit_of_mem_padded {width value : ℕ} {character : Char}
    (hcharacter : character ∈ padded width value) : character.isDigit = true := by
  rcases List.mem_append.mp hcharacter with hzero | hdigit
  · rw [List.eq_of_mem_replicate hzero]
    decide
  · exact isDigit_of_mem_digitChars hdigit

/-- A number with at most `width` digits is padded to exactly that many. -/
theorem length_padded {width value : ℕ} (hwidth : 0 < width) (hvalue : value < 10 ^ width) :
    (padded width value).length = width := by
  have hlength : (digitChars value).length ≤ width :=
    (Nat.length_toDigits_le_iff (by decide) hwidth).mpr hvalue
  rw [padded, List.length_append, List.length_replicate]
  omega

/-- A padded number is read back. -/
theorem readDigits_padded_chars (width value : ℕ) : readDigits (padded width value) 0 = value :=
  readDigits_padded _ value

/-- A padded number has at least one digit. -/
theorem padded_ne_nil (width value : ℕ) : padded width value ≠ [] :=
  List.append_ne_nil_of_right_ne_nil _ (digitChars_ne_nil value)

/-- A padded number does not start with a mark. -/
theorem padded_append_ne (width value : ℕ) (rest : List Char) {mark : Char}
    (hmark : mark.isDigit = false) (other : List Char) : padded width value ++ rest ≠ mark :: other := by
  obtain ⟨first, others, hfirst⟩ := List.exists_cons_of_ne_nil (padded_ne_nil width value)
  have hdigit : first.isDigit = true :=
    isDigit_of_mem_padded (hfirst ▸ List.mem_cons_self ..)
  rw [hfirst, List.cons_append]
  intro h
  rw [(List.cons.inj h).1, hmark] at hdigit
  cases hdigit

/-- Nothing is trimmed in front of a padded number. -/
theorem trimLeft_padded (width value : ℕ) (rest : List Char) :
    Text.trimLeft (padded width value ++ rest) = padded width value ++ rest := by
  obtain ⟨first, others, hfirst⟩ := List.exists_cons_of_ne_nil (padded_ne_nil width value)
  have hdigit : first.isDigit = true :=
    isDigit_of_mem_padded (hfirst ▸ List.mem_cons_self ..)
  rw [hfirst, List.cons_append, Text.trimLeft, List.dropWhile_cons,
    if_neg (by simp [isBlank_of_isDigit hdigit])]

/-- The digits in front of a character that is none are a padded number. -/
theorem takeWhile_padded (width value : ℕ) {rest : List Char}
    (hrest : ∀ character ∈ rest.head?, character.isDigit = false) :
    (padded width value ++ rest).takeWhile Decimal.isDigit = padded width value ∧
      (padded width value ++ rest).dropWhile Decimal.isDigit = rest := by
  have hall : ∀ character ∈ padded width value, Decimal.isDigit character = true := by
    intro character hcharacter
    rw [isDigit_eq]
    exact isDigit_of_mem_padded hcharacter
  have hstop : rest.takeWhile Decimal.isDigit = [] ∧ rest.dropWhile Decimal.isDigit = rest := by
    cases rest with
    | nil => exact ⟨rfl, rfl⟩
    | cons character rest =>
      have hcharacter : Decimal.isDigit character = false := by
        rw [isDigit_eq]
        exact hrest character rfl
      simp [hcharacter]
  rw [List.takeWhile_append_of_pos hall, List.dropWhile_append_of_pos hall, hstop.1, hstop.2,
    List.append_nil]
  exact ⟨rfl, rfl⟩

/-- A padded number of the right width is read. -/
theorem readNumber?_padded {width value : ℕ} (hwidth : 0 < width) (hvalue : value < 10 ^ width)
    (rest : List Char) : readNumber? width (padded width value ++ rest) = some (value, rest) := by
  have hlength := length_padded hwidth hvalue
  have htake : (padded width value ++ rest).take width = padded width value :=
    List.take_left' hlength
  have hdigits : (padded width value).takeWhile Decimal.isDigit = padded width value := by
    have hnone : ∀ character ∈ ([] : List Char).head?, character.isDigit = false := by simp
    have hpadded := (takeWhile_padded width value hnone).1
    rwa [List.append_nil] at hpadded
  rw [readNumber?, trimLeft_padded, htake, hdigits, if_neg (by simpa using padded_ne_nil width value), readDigits_padded_chars,
    List.drop_left' rfl]

/-! ### The parts of a written instant -/

/-- A mark that is no blank is found where it is expected. -/
theorem expect?_cons {mark : Char} (hmark : Text.isBlank mark = false) (rest : List Char) :
    expect? mark (mark :: rest) = some rest := by
  rw [expect?, Text.trimLeft, List.dropWhile_cons, if_neg (by simp [hmark])]
  simp

/-- A year is read up to the mark after it. -/
theorem readYear?_yearChars (year : ℤ) (rest : List Char) :
    readYear? (yearChars year ++ '-' :: rest) = some (year, '-' :: rest) := by
  have hmark : ∀ character ∈ ('-' :: rest).head?, character.isDigit = false := by
    rintro character ⟨⟩
    decide
  unfold yearChars readYear?
  dsimp only
  by_cases hfour : 0 ≤ year ∧ year ≤ 9999
  · obtain ⟨count, rfl⟩ := Int.eq_ofNat_of_zero_le hfour.1
    have hread : readNumber? 4 (padded 4 count ++ '-' :: rest) = some (count, '-' :: rest) :=
      readNumber?_padded (by decide) (by omega) _
    rw [if_pos hfour, Int.toNat_natCast, trimLeft_padded]
    split
    · next h => exact absurd h (padded_append_ne 4 count _ rfl _)
    · next h => exact absurd h (padded_append_ne 4 count _ rfl _)
    · rw [hread]
      rfl
  · obtain ⟨hdigits, hafter⟩ := takeWhile_padded 4 year.natAbs hmark
    have hne : (padded 4 year.natAbs).isEmpty = false := by
      simpa using padded_ne_nil 4 year.natAbs
    rw [if_neg hfour]
    by_cases hnegative : year < 0
    · have htrim : Text.trimLeft ('-' :: (padded 4 year.natAbs ++ '-' :: rest)) =
          '-' :: (padded 4 year.natAbs ++ '-' :: rest) := rfl
      have hyear : -(year.natAbs : ℤ) = year := by omega
      rw [if_pos hnegative, List.cons_append, htrim]
      simp only [hdigits, hafter, hne, readDigits_padded_chars, Bool.false_eq_true, if_false,
        Option.map_some, hyear]
    · have htrim : Text.trimLeft ('+' :: (padded 4 year.natAbs ++ '-' :: rest)) =
          '+' :: (padded 4 year.natAbs ++ '-' :: rest) := rfl
      have hyear : (year.natAbs : ℤ) = year := by omega
      rw [if_neg hnegative, List.cons_append, htrim]
      simp only [hdigits, hafter, hne, readDigits_padded_chars, Bool.false_eq_true, if_false,
        Option.map_some, hyear]

/-- A fraction of a second is read up to the mark after it. -/
theorem readFraction?_fractionChars {nanoseconds : ℕ} (hlt : nanoseconds < 1000000000)
    (rest : List Char) :
    readFraction? (fractionChars nanoseconds ++ 'Z' :: rest) = some (nanoseconds, 'Z' :: rest) := by
  -- A count of the last of `width` places stands for that many powers of ten below a second.
  have hplaces : ∀ (width value : ℕ), 0 < width → width ≤ 9 → value < 10 ^ width →
      readFraction? ('.' :: padded width value ++ 'Z' :: rest) =
        some (value * 10 ^ (9 - width), 'Z' :: rest) := by
    intro width value hpos hwidth hvalue
    have hmark : ∀ character ∈ ('Z' :: rest).head?, character.isDigit = false := by
      rintro character ⟨⟩
      decide
    obtain ⟨hdigits, hafter⟩ := takeWhile_padded width value hmark
    have hlength := length_padded hpos hvalue
    rw [List.cons_append, readFraction?, hdigits, hafter,
      if_neg (by simpa using padded_ne_nil width value), List.take_of_length_le (by omega)]
    dsimp only
    rw [readDigits_padded_chars, hlength]
    rfl
  unfold fractionChars
  split_ifs with hzero hmillis hmicros
  · rw [hzero]
    rfl
  · rw [hplaces 3 _ (by decide) (by decide) (by omega)]
    congr 2
    omega
  · rw [hplaces 6 _ (by decide) (by decide) (by omega)]
    congr 2
    omega
  · rw [hplaces 9 _ (by decide) (by decide) (by omega)]
    simp

/-- A month has at most 31 days. -/
theorem daysInMonth_le (year month : ℤ) : daysInMonth year month ≤ 31 := by
  unfold daysInMonth
  split_ifs <;> decide

/-- The written form of a date, a time of day in UTC and a fraction of a second is read as the instant
that they name. -/
theorem read?_parts {year month day : ℤ} {hour minute second fraction : ℕ}
    (hyear : -262143 ≤ year ∧ year ≤ 262142) (hmonth : 1 ≤ month ∧ month ≤ 12)
    (hday : 1 ≤ day ∧ day ≤ daysInMonth year month) (hhour : hour < 24) (hminute : minute < 60)
    (hsecond : second ≤ 60) (hfraction : fraction < 1000000000) :
    read? (String.ofList (yearChars year ++ '-' :: padded 2 month.toNat ++ '-' :: padded 2 day.toNat ++
      'T' :: padded 2 hour ++ ':' :: padded 2 minute ++ ':' :: padded 2 second ++
      fractionChars fraction ++ ['Z'])) =
      some ⟨daysOfDate year month day * 86400 + hour * 3600 + minute * 60 +
        (if second = 60 then 59 else second : ℕ), fraction + if second = 60 then 1000000000 else 0⟩ := by
  have hlong := daysInMonth_le year month
  have hnumber : ∀ value, value < 100 → ∀ rest,
      readNumber? 2 (padded 2 value ++ rest) = some (value, rest) :=
    fun value hvalue => readNumber?_padded (by decide) hvalue
  have hoffset : readOffset? ['Z'] = some (0, []) := rfl
  have hmonthNat : ((month.toNat : ℕ) : ℤ) = month := Int.toNat_of_nonneg (by omega)
  have hdayNat : ((day.toNat : ℕ) : ℤ) = day := Int.toNat_of_nonneg (by omega)
  have hchars : yearChars year ++ '-' :: padded 2 month.toNat ++ '-' :: padded 2 day.toNat ++
      'T' :: padded 2 hour ++ ':' :: padded 2 minute ++ ':' :: padded 2 second ++
      fractionChars fraction ++ ['Z'] =
      yearChars year ++ '-' :: (padded 2 month.toNat ++ '-' :: (padded 2 day.toNat ++
        'T' :: (padded 2 hour ++ ':' :: (padded 2 minute ++ ':' :: (padded 2 second ++
          (fractionChars fraction ++ ['Z'])))))) := by
    simp only [List.append_assoc, List.cons_append]
  unfold read?
  rw [String.toList_ofList, hchars, readYear?_yearChars]
  dsimp only [Option.bind_eq_bind, Option.bind_some]
  rw [expect?_cons rfl]
  dsimp only [Option.bind_some]
  rw [hnumber month.toNat (by omega)]
  dsimp only [Option.bind_some]
  rw [expect?_cons rfl]
  dsimp only [Option.bind_some]
  rw [hnumber day.toNat (by omega)]
  dsimp only [Option.bind_some]
  -- The separator is one of three characters; the printed one selects the first branch.
  change Option.bind (readNumber? 2 (padded 2 hour ++ _)) _ = _
  rw [hnumber hour (by omega)]
  dsimp only [Option.bind_some]
  rw [expect?_cons rfl]
  dsimp only [Option.bind_some]
  rw [hnumber minute (by omega)]
  dsimp only [Option.bind_some]
  rw [expect?_cons rfl]
  dsimp only [Option.bind_some]
  rw [hnumber second (by omega)]
  dsimp only [Option.bind_some]
  rw [readFraction?_fractionChars hfraction]
  dsimp only [Option.bind_some]
  rw [hoffset]
  dsimp only [Option.bind_some]
  rw [hmonthNat, hdayNat]
  rw [if_pos ⟨rfl, hyear.1, hyear.2, by omega, by omega, by omega, hday.2, hhour, hminute, hsecond,
    by decide⟩, Int.sub_zero]

/-- A valid instant is read back from its written form. -/
theorem read?_text {instant : Instant} (hvalid : instant.Valid) :
    read? instant.text = some instant := by
  obtain ⟨hmonth, hmonth', hday, hday', hdays⟩ := dateOfDays_valid (instant.seconds / 86400)
  have hyear := hvalid.year_ge
  have hyear' := hvalid.year_le
  have hnanoseconds := hvalid.nanoseconds_lt
  obtain ⟨ofDay, hofDay, hofDayLt⟩ : ∃ ofDay : ℕ, (ofDay : ℤ) = instant.seconds % 86400 ∧
      ofDay < 86400 := ⟨(instant.seconds % 86400).toNat, by omega, by omega⟩
  have htoNat : (instant.seconds % 86400).toNat = ofDay := by omega
  unfold text
  dsimp only
  rw [htoNat]
  by_cases hleap : 1000000000 ≤ instant.nanoseconds
  · have hlast := hvalid.leap_second hleap
    have hminuteEnd : ofDay % 60 = 59 := by omega
    simp only [hleap, decide_true, if_true, hminuteEnd]
    rw [read?_parts ⟨hyear, hyear'⟩ ⟨hmonth, hmonth'⟩ ⟨hday, hday'⟩ (by omega) (by omega) (by omega)
      (by omega), hdays]
    cases instant
    simp only [Option.some.injEq, Instant.mk.injEq, if_true]
    dsimp only at hofDay hleap
    omega
  · simp only [hleap, decide_false, Bool.false_eq_true, if_false, Nat.add_zero, Nat.sub_zero]
    have hordinary : ofDay % 60 ≠ 60 := by omega
    rw [read?_parts ⟨hyear, hyear'⟩ ⟨hmonth, hmonth'⟩ ⟨hday, hday'⟩ (by omega) (by omega) (by omega)
      (by omega), hdays, if_neg hordinary, if_neg hordinary]
    cases instant
    simp only [Option.some.injEq, Instant.mk.injEq, Nat.add_zero, and_true]
    dsimp only at hofDay
    omega

end PrivateFootage.Instant
