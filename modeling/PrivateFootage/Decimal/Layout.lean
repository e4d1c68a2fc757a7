import PrivateFootage.Decimal.Binary

/-!
# How numbers are laid out as text

Three layouts are in use. Messages and tables write the shortest digits positionally, never with
an exponent. Documents write a number so that it is recognisable as fractional: positionally with
at least one place from `10 ^ -5` up to `10 ^ 16`, in exponent form beyond. Reports and
descriptors write a fixed number of places, rounding the exact value with ties to even.
-/

namespace PrivateFootage

namespace Decimal

/-- The digits of a positional decimal before and after the point. -/
def positional (digits : Nat) (exponent : Int) : List Char × List Char :=
  let characters := digitChars digits
  if 0 ≤ exponent then (characters ++ List.replicate exponent.toNat '0', [])
  else
    let places := (-exponent).toNat
    let padded := List.replicate (places + 1 - characters.length) '0' ++ characters
    (padded.take (padded.length - places), padded.drop (padded.length - places))

/-- Write a sign in front of a magnitude. -/
def signed (negative : Bool) (magnitude : List Char) : List Char :=
  if negative then '-' :: magnitude else magnitude

/-- Positional notation with no more places than needed and no point after a whole number. -/
def plainChars (value : Decimal) : List Char :=
  let (whole, places) := positional value.digits (if value.digits = 0 then 0 else value.exponent)
  signed value.negative (if places.isEmpty then whole else whole ++ '.' :: places)

/-- Document notation: at least one place, and an exponent outside `10 ^ -5` to `10 ^ 16`. -/
def documentChars (value : Decimal) : List Char :=
  if value.digits = 0 then signed value.negative ['0', '.', '0']
  else
    let characters := digitChars value.digits
    let leading := value.exponent + characters.length - 1
    if -5 ≤ leading ∧ leading < 16 then
      let (whole, places) := positional value.digits value.exponent
      signed value.negative (whole ++ '.' :: (if places.isEmpty then ['0'] else places))
    else
      let mantissa := match characters with
        | [] => []
        | [only] => [only]
        | first :: rest => first :: '.' :: rest
      let power := (if leading < 0 then '-' else '+') :: digitChars leading.natAbs
      signed value.negative (mantissa ++ 'e' :: power)

/-- A whole number of units of `10 ^ -places`, written with exactly that many places. -/
def fixedChars (negative : Bool) (units places : Nat) : List Char :=
  let (whole, fraction) := positional units (-places)
  signed negative (if places = 0 then whole else whole ++ '.' :: fraction)

end Decimal

namespace Binary

/-- The text of an infinity. -/
def infinityText (negative : Bool) : String :=
  if negative then "-inf" else "inf"

/-- The shortest decimal of a finite value in documents; infinities and non-numbers have none. -/
def toDecimal? : Binary → Option Decimal
  | .finite negative significand exponent narrowBelow =>
    some (shortest .toEven negative significand exponent narrowBelow)
  | .infinite _ | .notANumber => none

/-- The text of a value in messages: shortest digits, positional, no exponent. -/
def plainText (value : Binary) : String :=
  match value with
  | .finite negative significand exponent narrowBelow =>
    String.ofList (shortest .up negative significand exponent narrowBelow).plainChars
  | .infinite negative => infinityText negative
  | .notANumber => "NaN"

/-- The text of a value with a fixed number of places, the exact value rounded ties to even. -/
def fixedText (places : Nat) (value : Binary) : String :=
  match value with
  | .finite negative significand exponent _ =>
    String.ofList (Decimal.fixedChars negative (roundedUnits significand exponent places) places)
  | .infinite negative => infinityText negative
  | .notANumber => "NaN"

end Binary

end PrivateFootage
