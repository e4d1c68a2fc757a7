import PrivateFootage.Decimal.Basic

/-!
# The exact value of a double, and its shortest decimal

A finite double is `± significand · 2 ^ exponent`. The real numbers that round to it form an
interval around that value; the ends belong to it exactly when the significand is even. The
shortest decimal is found on the coarsest power-of-ten grid that meets the interval: of the two
grid neighbours of the value, the one inside the interval, and the nearer one if both are. Where
both are equally near, texts for people take the upper one and documents the even one. All
comparisons are made in natural numbers.
-/

namespace PrivateFootage

/-- What a double stands for: a binary fraction, an infinity, or no number. -/
inductive Binary where
  /-- The number `± significand · 2 ^ exponent`. The gap to the next smaller magnitude is half
  the gap to the next larger one exactly when `narrowBelow` holds. -/
  | finite (negative : Bool) (significand : Nat) (exponent : Int) (narrowBelow : Bool)
  | infinite (negative : Bool)
  | notANumber
deriving DecidableEq, Repr

/-- Which of two equally near decimals stands for a value: the upper or the even one. -/
inductive Tie where
  | up
  | toEven
deriving DecidableEq, Repr

/-- Whether a rest goes up, when `below` whole units lie below it and it is `rest / unit` of one. -/
def Tie.goesUp (tie : Tie) (below rest unit : Nat) : Bool :=
  match tie with
  | .up => unit ≤ 2 * rest
  | .toEven => unit < 2 * rest || (2 * rest = unit && below % 2 = 1)

namespace Binary

/-- The number of fractions that 52 bits can hold. -/
def fractionCount : Nat := 0x10000000000000

/-- The number of exponents that 11 bits can hold. -/
def exponentCount : Nat := 0x800

/-- Split the 64 bits of a double into sign, exponent and fraction. -/
def ofBits (bits : Nat) : Binary :=
  let negative := decide (fractionCount * exponentCount ≤ bits)
  let biased : Nat := bits / fractionCount % exponentCount
  let fraction : Nat := bits % fractionCount
  if biased + 1 = exponentCount then
    if fraction = 0 then .infinite negative else .notANumber
  else if biased = 0 then .finite negative fraction (-1074) false
  else .finite negative (fractionCount + fraction) ((biased : Int) - 1075) (fraction = 0 ∧ biased ≠ 1)

/-- The value of a double. -/
def ofFloat (value : Float) : Binary :=
  ofBits value.toBits.toNat

/-- The quotient `a · 2 ^ binary / 10 ^ decimal` as a pair of natural numbers. -/
def gridRatio (a : Nat) (binary decimal : Int) : Nat × Nat :=
  (a * Nat.pow 2 binary.toNat * Nat.pow 10 (-decimal).toNat,
    Nat.pow 2 (-binary).toNat * Nat.pow 10 decimal.toNat)

/-- Search ever finer grids `10 ^ grid` for the first that meets the rounding interval of
`significand · 2 ^ exponent`, and return the chosen number of grid units with the grid. -/
def searchGrid (tie : Tie) (significand : Nat) (exponent : Int) (narrowBelow : Bool) :
    Nat → Int → Nat × Int
  | 0, grid =>
    let (value, unit) := gridRatio significand exponent grid
    (value / unit, grid)
  | fuel + 1, grid =>
    -- Quarter units, so that both ends of the interval are whole.
    let (value, unit) := gridRatio (4 * significand) (exponent - 2) grid
    let (low, _) := gridRatio (4 * significand - (if narrowBelow then 1 else 2)) (exponent - 2) grid
    let (high, _) := gridRatio (4 * significand + 2) (exponent - 2) grid
    let below := value / unit
    let closed := significand % 2 = 0
    let belowHits := below ≠ 0 ∧ (low < below * unit ∨ (closed ∧ low = below * unit))
    let aboveHits := (below + 1) * unit < high ∨ (closed ∧ (below + 1) * unit = high)
    if belowHits ∧ aboveHits then
      if tie.goesUp below (value % unit) unit then (below + 1, grid) else (below, grid)
    else if belowHits then (below, grid)
    else if aboveHits then (below + 1, grid)
    else searchGrid tie significand exponent narrowBelow fuel (grid - 1)

/-- The decimal with the fewest digits that rounds to `significand · 2 ^ exponent`, nearest to
it among those. -/
def shortest (tie : Tie) (negative : Bool) (significand : Nat) (exponent : Int)
    (narrowBelow : Bool) : Decimal :=
  if significand = 0 then ⟨negative, 0, 0⟩
  else
    -- A power of ten above the value: `log₁₀ 2` is just below 30103 / 100000.
    let start := (Nat.log2 significand + 1 + exponent) * 30103 / 100000 + 1
    let (units, grid) := searchGrid tie significand exponent narrowBelow 24 start
    let (digits, power) := Decimal.stripZeros 24 units grid
    ⟨negative, digits, power⟩

/-- The value times `10 ^ places`, rounded to a natural number with ties to even. -/
def roundedUnits (significand : Nat) (exponent : Int) (places : Nat) : Nat :=
  let (value, unit) := gridRatio significand exponent (-places)
  let below := value / unit
  if Tie.toEven.goesUp below (value % unit) unit then below + 1 else below

end Binary

end PrivateFootage
