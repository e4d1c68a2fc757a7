import PrivateFootage.Privacy.Bound

/-!
# Privacy parameters

The budget of a query, the bounds its values are brought into, how regions are combined, and in how
many segments of a recording one individual may appear. Parameters are checked against the rendition
that is read; the checks are made in a fixed order and the first that fails is reported.
-/

namespace PrivateFootage

/-- The privacy parameters of a query. -/
structure PrivacyParams (α : Type) where
  epsilon : α
  lower : Bound α
  upper : Bound α
  combination : Combination := .sum
  splitCount : Option Nat := none
  segments : Nat := 1
deriving DecidableEq, Repr

namespace PrivacyParams

variable {α : Type} [Scalar α]

/-- The lower end of the one range that covers the bounds of all regions. -/
def lowest (params : PrivacyParams α) : α := params.lower.lowest

/-- The upper end of the one range that covers the bounds of all regions. -/
def highest (params : PrivacyParams α) : α := params.upper.highest

/-- Check one bound: it has entries, all finite, and as many as there are regions. -/
def checkBound (side : Side) (bound : Bound α) (splitCount : Option Nat) : Outcome Unit :=
  if bound.values.isEmpty then .setting (.emptyBound side)
  else if bound.values.any fun value => !Scalar.isFinite value then .setting (.nonFiniteBound side)
  else match bound.splitCount?, splitCount with
    | some entries, some splits =>
      if entries = splits then .ok () else .setting (.boundCount side entries splits)
    | _, _ => .ok ()

/-- Check that the parameters have what a rendition needs. -/
def checkRendition (params : PrivacyParams α) : Rendition → Outcome Unit
  | .maskedRegions =>
    match params.splitCount with
    | some splits => if 0 < splits then .ok () else .setting .queryWithoutSplitCount
    | none => .setting .queryWithoutSplitCount
  | .unmasked | .masked => .ok ()
  | .reserved => .error (.unsupported .reserved)

/-- Check the parameters of a query on a rendition. -/
def validate (params : PrivacyParams α) (rendition : Rendition) : Outcome Unit := do
  if !Scalar.isFinite params.epsilon || decide (params.epsilon ≤ 0) then
    Outcome.setting (.epsilonNotPositive (Scalar.plainText params.epsilon))
  if params.segments = 0 then Outcome.setting .noSegments
  checkBound .lower params.lower params.splitCount
  checkBound .upper params.upper params.splitCount
  if params.highest < params.lowest then
    Outcome.setting
      (.boundsCrossed (Scalar.plainText params.lowest) (Scalar.plainText params.highest))
  params.checkRendition rendition

/-- Write privacy parameters as JSON. -/
def toJson (params : PrivacyParams α) : Json :=
  Json.ofMembers
    [("epsilon", Json.ofScalar params.epsilon), ("lower", params.lower.toJson),
      ("upper", params.upper.toJson), ("split_combine", params.combination.toJson),
      ("num_splits", (params.splitCount.map Json.ofCount).getD .null),
      ("k_segments", Json.ofCount params.segments)]

/-- Read privacy parameters from JSON. -/
def ofJson? (value : Json) : Option (PrivacyParams α) := do
  match ← value.fields?
    ["epsilon", "lower", "upper", "split_combine", "num_splits", "k_segments"] with
  | [epsilon, lower, upper, combination, splits, segments] =>
    some
      { epsilon := ← Json.required? Json.scalar? epsilon
        lower := ← Json.required? Bound.ofJson? lower
        upper := ← Json.required? Bound.ofJson? upper
        combination := ← Json.defaulting? .sum Combination.ofJson? combination
        splitCount :=
          ← Json.defaulting? none (Json.optional? (Json.count? UInt64.size)) splits
        segments := ← Json.defaulting? 1 (Json.count? UInt32.size) segments }
  | _ => none

end PrivacyParams

end PrivateFootage
