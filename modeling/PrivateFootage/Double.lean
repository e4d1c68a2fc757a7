import PrivateFootage.Decimal.Layout
import PrivateFootage.Scalar

/-!
# Doubles as the numbers of the analysis

The instance of `Scalar` and `Analytic` that programs run. Sorting uses the total order of the
binary format, in which `-0.0` comes before `0.0` and the non-number after every other value.
-/

namespace PrivateFootage

namespace Double

/-- The place of a double in the total order: magnitudes above zero, in reverse below it.

The sign of a value that is not a number is not kept. It comes after all numbers whatever its sign, where the
total order of the format has it before them if its sign bit is set. -/
def rank (value : Float) : Int :=
  let bits : Int := value.toBits.toNat
  if bits < 0x8000000000000000 then bits else 0x7FFFFFFFFFFFFFFF - bits

/-- The double nearest to a decimal, infinite if that lies beyond every finite double.

Decimals far outside the range of doubles are settled by their leading digit's place. -/
def ofDecimal (value : Decimal) : Float :=
  let leading := value.exponent + Decimal.digitCount value.digits
  let magnitude : Float :=
    if value.digits = 0 then 0
    else if 400 < leading then 1 / 0
    else if leading < -400 then 0
    else Float.ofScientific value.digits (value.exponent < 0) value.exponent.natAbs
  if value.negative then -magnitude else magnitude

/-- The double that a written number stands for. -/
def ofWritten : Written → Float
  | .decimal value => ofDecimal value
  | .infinite negative => if negative then -(1 / 0) else 1 / 0
  | .notANumber => 0 / 0

/-- The whole number a double is equal to, held at `2 ^ 64 - 1`. -/
def index? (value : Float) : Option Nat :=
  if value.isFinite && 0 ≤ value && value.floor == value then some value.toUInt64.toNat else none

end Double

instance : Scalar Float where
  zero := 0
  one := 1
  ofNat := Float.ofNat
  decideLE := Float.decLe
  decideLT := Float.decLt
  precedes a b := decide (Double.rank a ≤ Double.rank b)
  precedes_total a b := by
    simpa only [decide_eq_true_eq] using Int.le_total (Double.rank a) (Double.rank b)
  precedes_trans a b c hab hbc := by
    simp only [decide_eq_true_eq] at *
    exact Int.le_trans hab hbc
  isFinite := Float.isFinite
  ceil := Float.ceil
  index? := Double.index?
  ofDecimal? value :=
    let nearest := Double.ofDecimal value
    if nearest.isFinite then some nearest else none
  ofWritten := Double.ofWritten
  toDecimal? value := (Binary.ofFloat value).toDecimal?
  plainText value := (Binary.ofFloat value).plainText
  fixedText places value := (Binary.ofFloat value).fixedText places

instance : Analytic Float where
  sqrt := Float.sqrt
  ln := Float.log

end PrivateFootage
