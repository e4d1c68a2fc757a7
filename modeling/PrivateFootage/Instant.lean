import PrivateFootage.Decimal.Reading
import PrivateFootage.Text.Blank

/-!
# Instants of time

An instant is a number of seconds since the start of 1970 in UTC with nanoseconds. A leap second is
the last second of a minute with a nanosecond count of a thousand million or more.

Reading takes a date, `T` or one space, a time of day and an offset from UTC, and allows blanks
between the parts. Writing always gives UTC, marked `Z`, and no, three, six or nine places of a
second, the fewest that keep the value.
-/

namespace PrivateFootage

/-- A moment in time: whole seconds since 1970 and the nanoseconds after them. -/
structure Instant where
  seconds : Int
  nanoseconds : Nat
deriving DecidableEq, Repr

namespace Instant

/-- Days from 1970-01-01 to a date of the proleptic Gregorian calendar.

Years are counted from March, so that the leap day comes last. -/
def daysOfDate (year month day : Int) : Int :=
  let marchYear := if month ≤ 2 then year - 1 else year
  let era := marchYear / 400
  let yearOfEra := marchYear - era * 400
  let dayOfYear := (153 * ((month + 9) % 12) + 2) / 5 + day - 1
  let dayOfEra := yearOfEra * 365 + yearOfEra / 4 - yearOfEra / 100 + dayOfYear
  era * 146097 + dayOfEra - 719468

/-- The year, month and day of a day counted from 1970-01-01. -/
def dateOfDays (days : Int) : Int × Int × Int :=
  let shifted := days + 719468
  let era := shifted / 146097
  let dayOfEra := shifted - era * 146097
  let yearOfEra :=
    (dayOfEra - dayOfEra / 1460 + dayOfEra / 36524 - dayOfEra / 146096) / 365
  let dayOfYear := dayOfEra - (365 * yearOfEra + yearOfEra / 4 - yearOfEra / 100)
  let marchMonth := (5 * dayOfYear + 2) / 153
  let day := dayOfYear - (153 * marchMonth + 2) / 5 + 1
  let month := if marchMonth < 10 then marchMonth + 3 else marchMonth - 9
  let year := yearOfEra + era * 400 + (if month ≤ 2 then 1 else 0)
  (year, month, day)

/-- Whether a year has a leap day. -/
def isLeapYear (year : Int) : Bool :=
  year % 4 = 0 && (year % 100 ≠ 0 || year % 400 = 0)

/-- The number of days of a month. -/
def daysInMonth (year month : Int) : Int :=
  if month = 2 then (if isLeapYear year then 29 else 28)
  else if month = 4 ∨ month = 6 ∨ month = 9 ∨ month = 11 then 30
  else 31

/-- Read between one and `width` digits after any blanks. -/
def readNumber? (width : Nat) (characters : List Char) : Option (Nat × List Char) :=
  let trimmed := Text.trimLeft characters
  let digits := (trimmed.take width).takeWhile Decimal.isDigit
  if digits.isEmpty then none else some (Decimal.readDigits digits 0, trimmed.drop digits.length)

/-- Read a year: up to four digits, or a sign and any number of digits. -/
def readYear? (characters : List Char) : Option (Int × List Char) :=
  let readSigned (rest : List Char) : Option (Nat × List Char) :=
    let digits := rest.takeWhile Decimal.isDigit
    if digits.isEmpty then none
    else some (Decimal.readDigits digits 0, rest.dropWhile Decimal.isDigit)
  match Text.trimLeft characters with
  | '-' :: rest => (readSigned rest).map fun (year, after) => (-(year : Int), after)
  | '+' :: rest => (readSigned rest).map fun (year, after) => ((year : Int), after)
  | rest => (readNumber? 4 rest).map fun (year, after) => ((year : Int), after)

/-- Skip blanks and then one required character. -/
def expect? (wanted : Char) (characters : List Char) : Option (List Char) :=
  match Text.trimLeft characters with
  | first :: rest => if first = wanted then some rest else none
  | [] => none

/-- Read an optional fraction of a second as nanoseconds; digits after the ninth are dropped. -/
def readFraction? : List Char → Option (Nat × List Char)
  | '.' :: rest =>
    let digits := rest.takeWhile Decimal.isDigit
    if digits.isEmpty then none
    else
      let kept := digits.take 9
      let nanoseconds := Decimal.readDigits kept 0 * Nat.pow 10 (9 - kept.length)
      some (nanoseconds, rest.dropWhile Decimal.isDigit)
  | rest => some (0, rest)

/-- Read hours and minutes of an offset, with any colons and blanks between them. -/
def readOffsetDigits? (characters : List Char) : Option (Int × List Char) :=
  match characters with
  | a :: b :: rest =>
    if Decimal.isDigit a && Decimal.isDigit b then
      match rest.dropWhile fun character => character = ':' || Text.isBlank character with
      | c :: d :: after =>
        if Decimal.isDigit c && Decimal.isDigit d && c ≤ '5' then
          let hours := Decimal.readDigits [a, b] 0
          let minutes := Decimal.readDigits [c, d] 0
          some (hours * 3600 + minutes * 60, after)
        else none
      | _ => none
    else none
  | _ => none

/-- Read an offset from UTC in seconds: `Z`, `UTC`, or a sign with hours and minutes. -/
def readOffset? (characters : List Char) : Option (Int × List Char) :=
  let trimmed := Text.trimLeft characters
  if Text.lower (trimmed.take 3) = "utc".toList then some (0, trimmed.drop 3)
  else match trimmed with
    | 'Z' :: rest => some (0, rest)
    | 'z' :: rest => some (0, rest)
    | '+' :: rest => readOffsetDigits? rest
    | '-' :: rest => (readOffsetDigits? rest).map fun (offset, after) => (-offset, after)
    | '−' :: rest => (readOffsetDigits? rest).map fun (offset, after) => (-offset, after)
    | _ => none

/-- Read an instant from its written form. -/
def read? (text : String) : Option Instant := do
  let (year, rest) ← readYear? text.toList
  let (month, rest) ← readNumber? 2 (← expect? '-' rest)
  let (day, rest) ← readNumber? 2 (← expect? '-' rest)
  let rest ← match rest with
    | 'T' :: after => some after
    | 't' :: after => some after
    | ' ' :: after => some after
    | _ => none
  let (hour, rest) ← readNumber? 2 rest
  let (minute, rest) ← readNumber? 2 (← expect? ':' rest)
  let (second, rest) ← readNumber? 2 (← expect? ':' rest)
  let (fraction, rest) ← readFraction? rest
  let (offset, rest) ← readOffset? rest
  if (Text.trimLeft rest).isEmpty ∧ -262143 ≤ year ∧ year ≤ 262142 ∧ 1 ≤ month ∧ month ≤ 12 ∧
      1 ≤ day ∧ (day : Int) ≤ daysInMonth year month ∧ hour < 24 ∧ minute < 60 ∧ second ≤ 60 ∧
      offset.natAbs < 86400 then
    let shown := if second = 60 then 59 else second
    let leap := if second = 60 then 1000000000 else 0
    some
      { seconds := daysOfDate year month day * 86400 + hour * 3600 + minute * 60 + shown - offset
        nanoseconds := fraction + leap }
  else none

/-- A natural number padded with zeros to a width. -/
def padded (width value : Nat) : List Char :=
  let digits := Decimal.digitChars value
  List.replicate (width - digits.length) '0' ++ digits

/-- A year as four digits, or with a sign outside those. -/
def yearChars (year : Int) : List Char :=
  if 0 ≤ year ∧ year ≤ 9999 then padded 4 year.toNat
  else (if year < 0 then '-' else '+') :: padded 4 year.natAbs

/-- The fraction of a second with the fewest groups of three places that keep it. -/
def fractionChars (nanoseconds : Nat) : List Char :=
  if nanoseconds = 0 then []
  else if nanoseconds % 1000000 = 0 then '.' :: padded 3 (nanoseconds / 1000000)
  else if nanoseconds % 1000 = 0 then '.' :: padded 6 (nanoseconds / 1000)
  else '.' :: padded 9 nanoseconds

/-- The written form of an instant, in UTC. -/
def text (instant : Instant) : String :=
  let (year, month, day) := dateOfDays (instant.seconds / 86400)
  let ofDay := (instant.seconds % 86400).toNat
  let leap := decide (1000000000 ≤ instant.nanoseconds)
  let second := ofDay % 60 + (if leap then 1 else 0)
  let fraction := instant.nanoseconds - (if leap then 1000000000 else 0)
  String.ofList <|
    yearChars year ++ '-' :: padded 2 month.toNat ++ '-' :: padded 2 day.toNat ++ 'T' ::
      padded 2 (ofDay / 3600) ++ ':' :: padded 2 (ofDay / 60 % 60) ++ ':' :: padded 2 second ++
      fractionChars fraction ++ ['Z']

end Instant

end PrivateFootage
