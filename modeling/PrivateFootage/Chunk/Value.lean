import PrivateFootage.Decimal.Layout
import PrivateFootage.Json.Reading

/-!
# What a chunk comes to

An aggregator turns a chunk into a number, with or without a correction for objects that the ends
of the chunk cut in two. A chunk of a scene in regions has one such value for each region.

In JSON a value is a number or a pair, and a result for regions is an object with the one member
`splits`. A value that is not finite is written as null, which no reader takes for a value.
-/

namespace PrivateFootage

/-- The value of one chunk: a number, or a number with a correction. -/
inductive ChunkValue (α : Type) where
  | plain (value : α)
  | corrected (value correction : α)
deriving DecidableEq, Repr

/-- The result for one chunk: one value, or one value for each region. -/
inductive ChunkResult (α : Type) where
  | single (value : ChunkValue α)
  | split (values : List (ChunkValue α))
deriving DecidableEq, Repr

namespace ChunkValue

variable {α : Type} [Scalar α]

/-- The number without its correction. -/
def value : ChunkValue α → α
  | .plain value => value
  | .corrected value _ => value

/-- The correction; a plain number has none. -/
def correction : ChunkValue α → α
  | .plain _ => 0
  | .corrected _ correction => correction

/-- The number less its correction, and at least zero. -/
def adjusted (chunk : ChunkValue α) : α :=
  Scalar.larger (chunk.value - chunk.correction) 0

/-- The number that a window sees. -/
def shaped (smartAdjust : Bool) (chunk : ChunkValue α) : α :=
  if smartAdjust then chunk.adjusted else chunk.value

end ChunkValue

/-- The JSON number of a finite value, null for any other. -/
def Json.ofScalar {α : Type} [Scalar α] (value : α) : Json :=
  match Scalar.toDecimal? value with
  | some decimal => .number decimal.documentChars
  | none => .null

namespace ChunkValue

variable {α : Type} [Scalar α]

/-- Write a chunk value as JSON. -/
def toJson : ChunkValue α → Json
  | .plain value => Json.ofScalar value
  | .corrected value correction => .array [Json.ofScalar value, Json.ofScalar correction]

/-- Read a chunk value from JSON. -/
def ofJson? : Json → Option (ChunkValue α)
  | .array [value, correction] => do
    some (.corrected (← Json.scalar? value) (← Json.scalar? correction))
  | value => (Json.scalar? value).map .plain

end ChunkValue

namespace ChunkResult

variable {α : Type} [Scalar α]

/-- Write a chunk result as JSON. -/
def toJson : ChunkResult α → Json
  | .single value => value.toJson
  | .split values => Json.ofMembers [("splits", .array (values.map ChunkValue.toJson))]

mutual

/-- Whether every literal of a value can be interpreted and its containers nest no deeper than a
limit. -/
def settled (α : Type) [Scalar α] (limit : Nat) : Json → Bool
  | .null => true
  | .bool _ => true
  | .number literal => (Json.scalar? (.number literal) : Option α).isSome
  | .string literal => (Json.unescape? literal).isSome
  | .array items => 0 < limit && settledItems α (limit - 1) items
  | .object members => 0 < limit && settledMembers α (limit - 1) members

/-- Whether every item of an array is settled. -/
def settledItems (α : Type) [Scalar α] (limit : Nat) : List Json → Bool
  | [] => true
  | item :: rest => settled α limit item && settledItems α limit rest

/-- Whether every name and value of an object is settled. -/
def settledMembers (α : Type) [Scalar α] (limit : Nat) : List (List Char × Json) → Bool
  | [] => true
  | (name, value) :: rest =>
    (Json.unescape? name).isSome && settled α limit value && settledMembers α limit rest

end

/-- Read a result for regions: an object with the member `splits`, other members ignored. -/
def splitsOfJson? (value : Json) : Option (List (ChunkValue α)) :=
  match value with
  | .object _ => do
    match ← value.fields? ["splits"] with
    | [some values] => values.list? ChunkValue.ofJson?
    | _ => none
  | _ => none

/-- Read a chunk result from JSON. The whole value has to be interpretable, ignored members
included, and may nest up to the given depth. -/
def ofJson? (depth : Nat) (value : Json) : Option (ChunkResult α) :=
  if settled α depth value then
    match (ChunkValue.ofJson? value : Option (ChunkValue α)) with
    | some chunk => some (.single chunk)
    | none => (splitsOfJson? value).map .split
  else none

/-- How deep a document may nest. -/
def maxDepth : Nat := 127

end ChunkResult

end PrivateFootage
