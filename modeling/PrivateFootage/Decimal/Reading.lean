import PrivateFootage.Decimal.Basic
import PrivateFootage.Text.Blank

/-!
# Reading numbers

An unsigned numeral is a run of digits with an optional point and an optional exponent, with at
least one digit on either side of the point. A written quantity is such a numeral with an optional
sign, or the name of an infinity or of the non-number in any case. The empty text is told apart
from any other text that is not a quantity.
-/

namespace PrivateFootage

namespace Decimal

/-- Read an exponent: an optional sign and at least one digit, up to the end of the text. -/
def readExponent? (characters : List Char) : Option Int :=
  let (negative, digits) := match characters with
    | '-' :: rest => (true, rest)
    | '+' :: rest => (false, rest)
    | rest => (false, rest)
  if digits.isEmpty || !digits.all isDigit then none
  else
    let magnitude : Int := readDigits digits 0
    some (if negative then -magnitude else magnitude)

/-- Read an unsigned numeral up to the end of the text. -/
def readUnsigned? (negative : Bool) (characters : List Char) : Option Decimal :=
  let whole := characters.takeWhile isDigit
  let afterWhole := characters.dropWhile isDigit
  let (places, afterPlaces) := match afterWhole with
    | '.' :: rest => (rest.takeWhile isDigit, rest.dropWhile isDigit)
    | rest => ([], rest)
  if whole.isEmpty && places.isEmpty then none
  else
    let digits := readDigits places (readDigits whole 0)
    match afterPlaces with
    | [] => some ⟨negative, digits, -places.length⟩
    | mark :: rest =>
      if mark = 'e' ∨ mark = 'E' then
        (readExponent? rest).map fun exponent => ⟨negative, digits, exponent - places.length⟩
      else none

/-- Split an optional sign off the front: whether it is a minus, and the rest. -/
def splitSign : List Char → Bool × List Char
  | '-' :: rest => (true, rest)
  | '+' :: rest => (false, rest)
  | rest => (false, rest)

end Decimal

/-- A number as it may be written: a decimal, an infinity or the non-number. -/
inductive Written where
  | decimal (value : Decimal)
  | infinite (negative : Bool)
  | notANumber
deriving DecidableEq, Repr

/-- Why a text is not a number. -/
inductive NumberFault where
  | empty
  | invalid
deriving DecidableEq, Repr

/-- The wording of a number fault. -/
def NumberFault.message : NumberFault → String
  | .empty => "cannot parse float from empty string"
  | .invalid => "invalid float literal"

namespace Written

/-- Read a signed number, an infinity or the non-number, up to the end of the text. -/
def read (characters : List Char) : Except NumberFault Written :=
  if characters.isEmpty then .error .empty
  else
    let (negative, rest) := Decimal.splitSign characters
    let name := Text.lower rest
    if name = "inf".toList ∨ name = "infinity".toList then .ok (.infinite negative)
    else if name = "nan".toList then .ok .notANumber
    else match Decimal.readUnsigned? negative rest with
      | some value => .ok (.decimal value)
      | none => .error .invalid

end Written

end PrivateFootage
