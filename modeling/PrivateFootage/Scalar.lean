import PrivateFootage.Decimal.Reading

/-!
# The arithmetic the analysis is written in

Boxes, bounds, windows, sensitivities and noise scales are written once, over any type of numbers
with the operations below. Programs run them on doubles; statements about exact arithmetic read
the same definitions over exact numbers. Nothing here assumes that the operations obey the laws of
an ordered field. The only law is that `precedes`, the order used for sorting, is a total preorder.

Extremes skip values that compare with nothing, as a non-number does. An empty list has no extreme;
where a number is still wanted the quotients `1 / 0` and `0 / 0` stand for "beyond every number"
and "no number".
-/

namespace PrivateFootage

/-- Numbers with the operations, comparisons and written forms that the analysis uses. -/
class Scalar (α : Type) extends Zero α, One α, Add α, Sub α, Mul α, Div α, Neg α, LE α, LT α,
    BEq α where
  /-- The number nearest to a natural number. -/
  ofNat : Nat → α
  decideLE : ∀ a b : α, Decidable (a ≤ b)
  decideLT : ∀ a b : α, Decidable (a < b)
  /-- A total order for sorting, in which every value has a place. -/
  precedes : α → α → Bool
  precedes_total : ∀ a b, precedes a b = true ∨ precedes b a = true
  precedes_trans : ∀ a b c, precedes a b = true → precedes b c = true → precedes a c = true
  isFinite : α → Bool
  /-- Round up to a whole number. -/
  ceil : α → α
  /-- The natural number a value is equal to, held at `2 ^ 64 - 1`; none if it is negative,
  fractional or not finite. -/
  index? : α → Option Nat
  /-- The number nearest to a decimal; none if it lies beyond every finite number. -/
  ofDecimal? : Decimal → Option α
  /-- The number a written text stands for. -/
  ofWritten : Written → α
  /-- The decimal that a finite number is written as. -/
  toDecimal? : α → Option Decimal
  /-- The text of a number in messages. -/
  plainText : α → String
  /-- The text of a number with a fixed number of places. -/
  fixedText : Nat → α → String

instance Scalar.decidableLE {α : Type} [Scalar α] (a b : α) : Decidable (a ≤ b) :=
  Scalar.decideLE a b

instance Scalar.decidableLT {α : Type} [Scalar α] (a b : α) : Decidable (a < b) :=
  Scalar.decideLT a b

/-- Numbers with square roots and natural logarithms. -/
class Analytic (α : Type) extends Scalar α where
  sqrt : α → α
  ln : α → α

namespace Scalar

variable {α : Type} [Scalar α]

/-- The number two. -/
def two : α := ofNat 2

/-- One half. -/
def half : α := 1 / two

/-- Stands for a value beyond every number: one divided by zero. -/
def unbounded : α := 1 / 0

/-- Stands for a missing number: zero divided by zero. -/
def undefined : α := 0 / 0

/-- The larger of two numbers; a value that compares with nothing gives way to the other. -/
def larger (a b : α) : α :=
  if a ≤ b then b else if a ≤ a then a else b

/-- The smaller of two numbers; a value that compares with nothing gives way to the other. -/
def smaller (a b : α) : α :=
  if a ≤ b then a else if b ≤ b then b else a

/-- The magnitude of a number. -/
def magnitude (a : α) : α :=
  if a < 0 then -a else a

/-- One with the sign of a number; zero counts as positive. -/
def sign (a : α) : α :=
  if a < 0 then -1 else 1

/-- Bring a value into the range from `lower` to `upper`. -/
def clip (lower upper value : α) : α :=
  smaller (larger value lower) upper

/-- Add up a list from left to right, starting at negative zero. -/
def sum (values : List α) : α :=
  values.foldl (· + ·) (-0)

/-- The sum divided by the number of values. -/
def mean (values : List α) : α :=
  sum values / ofNat values.length

/-- The largest of the values that compare at all. -/
def greatest? (values : List α) : Option α :=
  match values.filter fun value => decide (value ≤ value) with
  | [] => none
  | first :: rest => some (rest.foldl larger first)

/-- The smallest of the values that compare at all. -/
def least? (values : List α) : Option α :=
  match values.filter fun value => decide (value ≤ value) with
  | [] => none
  | first :: rest => some (rest.foldl smaller first)

/-- The largest of the values, or below every number if there is none. -/
def greatest (values : List α) : α :=
  (greatest? values).getD (-unbounded)

/-- The smallest of the values, or beyond every number if there is none. -/
def least (values : List α) : α :=
  (least? values).getD unbounded

/-- The middle value in sorted order; of an even number of values, half the sum of the two. -/
def median (values : List α) : α :=
  let sorted := values.mergeSort precedes
  let middle := sorted.length / 2
  let upper := sorted.getD middle undefined
  if sorted.length % 2 = 1 then upper
  else (sorted.getD (middle - 1) undefined + upper) * half

end Scalar

end PrivateFootage
