/-!
# Signed decimal numbers

A decimal is a sign, a natural number of units and a power of ten. Every number that the
library reads from or writes to text passes through this type, so the two directions share one
meaning. The sign is kept for zero as well, because `-0.0` is written with its sign.

The layouts of a decimal as text are in `PrivateFootage.Decimal.Layout`.
-/

namespace PrivateFootage

/-- The decimal number `± digits · 10 ^ exponent`. -/
structure Decimal where
  negative : Bool
  digits : Nat
  exponent : Int
deriving DecidableEq, Repr

namespace Decimal

/-- Drop trailing zero digits, at most `fuel` of them, raising the exponent to match. -/
def stripZeros : Nat → Nat → Int → Nat × Int
  | 0, digits, exponent => (digits, exponent)
  | fuel + 1, digits, exponent =>
    if digits ≠ 0 ∧ digits % 10 = 0 then stripZeros fuel (digits / 10) (exponent + 1)
    else (digits, exponent)

/-- The characters of a natural number in base ten. -/
def digitChars (value : Nat) : List Char :=
  Nat.toDigits 10 value

/-- The number of base ten digits of a natural number; zero has one. -/
def digitCount (value : Nat) : Nat :=
  (digitChars value).length

/-- The value of one base ten digit. -/
def digitValue (character : Char) : Nat :=
  character.toNat - '0'.toNat

/-- Read a run of base ten digits, continuing from the value read so far. -/
def readDigits (characters : List Char) (start : Nat) : Nat :=
  characters.foldl (fun value character => 10 * value + digitValue character) start

/-- Whether a character is one of the ten base ten digits. -/
def isDigit (character : Char) : Bool :=
  '0' ≤ character && character ≤ '9'

end Decimal

end PrivateFootage
