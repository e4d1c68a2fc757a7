import PrivateFootage.Chunk.Value
import PrivateFootage.Error

/-!
# Bounds and reductions

A bound on values holds for the whole scene, or for each region on its own. The values of the
regions of a chunk are combined into one, and the values of the chunks of a window are reduced to
one, by one of a few functions with names.
-/

namespace PrivateFootage

/-- A bound for the whole scene or one for each region. -/
inductive Bound (α : Type) where
  | scene (value : α)
  | perSplit (values : List α)
deriving DecidableEq, Repr

namespace Bound

variable {α : Type} [Scalar α]

/-- The numbers of a bound. -/
def values : Bound α → List α
  | .scene value => [value]
  | .perSplit values => values

/-- The smallest number of a bound. -/
def lowest : Bound α → α
  | .scene value => value
  | .perSplit values => Scalar.least values

/-- The largest number of a bound. -/
def highest : Bound α → α
  | .scene value => value
  | .perSplit values => Scalar.greatest values

/-- The number for one region. -/
def forSplit? : Bound α → Nat → Option α
  | .scene _, _ => none
  | .perSplit values, split => values[split]?

/-- The number of regions a bound is given for. -/
def splitCount? : Bound α → Option Nat
  | .scene _ => none
  | .perSplit values => some values.length

/-- Write a bound as JSON. -/
def toJson : Bound α → Json
  | .scene value => Json.ofScalar value
  | .perSplit values => .array (values.map Json.ofScalar)

/-- Read a bound from JSON. -/
def ofJson? : Json → Option (Bound α)
  | .array items => (items.mapM Json.scalar?).map .perSplit
  | value => (Json.scalar? value).map .scene

end Bound

/-- How the values of regions are combined. -/
inductive Combination where
  | sum
  | mean
  | max
deriving DecidableEq, Repr

namespace Combination

/-- Every combination. -/
def all : List Combination := [.sum, .mean, .max]

/-- The name of a combination. -/
def name : Combination → String
  | .sum => "sum"
  | .mean => "mean"
  | .max => "max"

/-- Combine the values of the regions of a chunk. -/
def combine {α : Type} [Scalar α] : Combination → List α → α
  | .sum, values => Scalar.sum values
  | .mean, values => Scalar.mean values
  | .max, values => Scalar.greatest values

/-- The combination with a name. -/
def ofName? (text : String) : Option Combination :=
  all.find? fun combination => combination.name = text

/-- Look a given name up as a combination. -/
def lookup (text : String) : Outcome Combination :=
  let form := String.ofList (Text.lower text.toList)
  match ofName? form with
  | some combination => .ok combination
  | none => .setting (.unknownName .splitCombination form)

/-- Write a combination as JSON. -/
def toJson (combination : Combination) : Json := Json.ofText combination.name

/-- Read a combination from JSON. -/
def ofJson? (value : Json) : Option Combination := value.choice?.bind ofName?

end Combination

/-- How the values of the chunks of a window are reduced. -/
inductive WindowFunction where
  | sum
  | mean
  | max
  | median
deriving DecidableEq, Repr

namespace WindowFunction

/-- Every window function. -/
def all : List WindowFunction := [.sum, .mean, .max, .median]

/-- The name of a window function. -/
def name : WindowFunction → String
  | .sum => "sum"
  | .mean => "mean"
  | .max => "max"
  | .median => "median"

/-- Reduce the values of the chunks of a window. -/
def reduce {α : Type} [Scalar α] : WindowFunction → List α → α
  | .sum, values => Scalar.sum values
  | .mean, values => Scalar.mean values
  | .max, values => Scalar.greatest values
  | .median, values => Scalar.median values

/-- The window function with a name. -/
def ofName? (text : String) : Option WindowFunction :=
  all.find? fun function => function.name = text

/-- Look a given name up as a window function. -/
def lookup (text : String) : Outcome WindowFunction :=
  let form := String.ofList (Text.lower text.toList)
  match ofName? form with
  | some function => .ok function
  | none => .setting (.unknownName .windowFunction form)

/-- Write a window function as JSON. -/
def toJson (function : WindowFunction) : Json := Json.ofText function.name

/-- Read a window function from JSON. -/
def ofJson? (value : Json) : Option WindowFunction := value.choice?.bind ofName?

end WindowFunction

end PrivateFootage
