import PrivateFootage.Privacy.Params

/-!
# Windows

Results of consecutive chunks are grouped into windows of a fixed number of chunks, and each window
is reduced to one number. What a chunk contributes depends on the rendition. Unmasked chunks
contribute their value as it is. Masked chunks contribute their adjusted value, brought into the
range of the privacy parameters. Chunks in regions contribute the combination of their regions,
brought into range before or after combining.

Regions are gathered over the whole window: each has the series of its values, one for each chunk,
and bounds of its own are applied to the series before the regions are combined chunk by chunk.
-/

namespace PrivateFootage

/-- How results are turned into windows. -/
structure Windowing (α : Type) where
  chunksPerWindow : Nat
  rendition : Rendition
  privacy : Option (PrivacyParams α)
  smartAdjust : Bool
  function : WindowFunction

/-- Cut `count` consecutive groups of `size` items off a list. Groups already cut are held in
reverse order. -/
def cutGroups {β : Type} (size : Nat) (cut : List (List β)) : Nat → List β → List (List β)
  | 0, _ => cut.reverse
  | count + 1, items => cutGroups size (items.take size :: cut) count (items.drop size)

/-- The consecutive groups of `size` items of a list whose length is a multiple of it. -/
def groupsOf {β : Type} (size : Nat) (items : List β) : List (List β) :=
  cutGroups size [] (items.length / size) items

namespace Windowing

variable {α : Type} [Scalar α]

/-- The value of a chunk that has one. -/
def singleValue (rendition : Rendition) : ChunkResult α → Outcome (ChunkValue α)
  | .single value => .ok value
  | .split _ => .data (.unexpectedSplits rendition)

/-- The values of a chunk in regions, as many as expected. -/
def splitValues (expected : Nat) : ChunkResult α → Outcome (List (ChunkValue α))
  | .single _ => .data .missingSplits
  | .split values =>
    if values.length = expected then .ok values
    else .data (.splitCount values.length expected)

/-- The bounds of one region. -/
def splitBounds (privacy : PrivacyParams α) (split : Nat) : Outcome (α × α) :=
  match privacy.lower.forSplit? split, privacy.upper.forSplit? split with
  | some lower, some upper => .ok (lower, upper)
  | _, _ => .setting (.noBoundForSplit split)

/-- Add the shaped values of one more chunk to the series of the regions. -/
def addChunk (smartAdjust : Bool) (count : Nat) (series : List (Array α))
    (result : ChunkResult α) : Outcome (List (Array α)) := do
  let values ← splitValues count result
  .ok (List.zipWith Array.push series (values.map (ChunkValue.shaped smartAdjust)))

/-- The shaped values of each region over the chunks of a window, one series for each region. -/
def regionSeries (smartAdjust : Bool) (count : Nat) (window : List (ChunkResult α)) :
    Outcome (List (Array α)) :=
  window.foldlM (addChunk smartAdjust count) (List.replicate count #[])

/-- Bring the series of every region into the bounds of that region. -/
def clipSeries (privacy : PrivacyParams α) (series : List (Array α)) : Outcome (List (Array α)) :=
  series.zipIdx.mapM fun (values, split) => do
    let (lower, upper) ← splitBounds privacy split
    .ok (values.map (Scalar.clip lower upper))

/-- The series that enter the combination: each in its own bounds, unless bounds are applied to the
combination. -/
def enteringSeries (privacy : PrivacyParams α) (smartAdjust : Bool) (count : Nat)
    (window : List (ChunkResult α)) (afterSplit : Bool) : Outcome (List (Array α)) := do
  let series ← regionSeries smartAdjust count window
  if afterSplit then .ok series else clipSeries privacy series

/-- Combine what all regions have at one chunk. -/
def combineAt (combination : Combination) (series : List (Array α)) (chunk : Nat) : α :=
  combination.combine (series.map fun values => values.getD chunk Scalar.undefined)

/-- What the chunks of a window in regions contribute. -/
def shapeRegions (windowing : Windowing α) (window : List (ChunkResult α)) (afterSplit : Bool) :
    Outcome (List α) :=
  match windowing.privacy with
  | none => .setting .windowWithoutPrivacy
  | some privacy =>
    match privacy.splitCount with
    | none => .setting .windowWithoutSplitCount
    | some count => do
      let series ← enteringSeries privacy windowing.smartAdjust count window afterSplit
      let combined := (List.range window.length).map (combineAt privacy.combination series)
      if afterSplit then .ok (combined.map (Scalar.clip privacy.lowest privacy.highest))
      else .ok combined

/-- What a chunk of the masked scene contributes. -/
def shapeMasked (windowing : Windowing α) (chunk : ChunkValue α) : α :=
  let shaped := chunk.shaped windowing.smartAdjust
  match windowing.privacy with
  | some privacy => Scalar.clip privacy.lowest privacy.highest shaped
  | none => shaped

/-- What the chunks of a window contribute. -/
def shape (windowing : Windowing α) (window : List (ChunkResult α)) (afterSplit : Bool) :
    Outcome (List α) :=
  match windowing.rendition with
  | .unmasked => window.mapM fun result => (singleValue .unmasked result).map ChunkValue.value
  | .masked => window.mapM fun result => (singleValue .masked result).map windowing.shapeMasked
  | .maskedRegions => windowing.shapeRegions window afterSplit
  | .reserved => .error (.unsupported .reserved)

/-- The value of one window. -/
def windowValue (windowing : Windowing α) (afterSplit : Bool) (window : List (ChunkResult α)) :
    Outcome α :=
  (windowing.shape window afterSplit).map windowing.function.reduce

/-- One value for each window, in chunk order. -/
def aggregate (windowing : Windowing α) (results : List (ChunkResult α)) (afterSplit : Bool) :
    Outcome (List α) :=
  if windowing.chunksPerWindow = 0 then .setting .noChunksPerWindow
  else if results.length % windowing.chunksPerWindow ≠ 0 then
    .setting (.unevenWindows results.length windowing.chunksPerWindow)
  else (groupsOf windowing.chunksPerWindow results).mapM (windowing.windowValue afterSplit)

end Windowing

end PrivateFootage
