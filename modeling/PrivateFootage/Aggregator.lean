import PrivateFootage.Chunk.Value
import PrivateFootage.Detection.Filter
import PrivateFootage.Track.Update

/-!
# Aggregators

An aggregator turns a chunk into a value, as a function of the chunk alone, and has a descriptor
that goes into the keys of stored results. Three kinds are built in: one that is always zero, one
that counts the objects seen, and one that counts those that moved up.
-/

namespace PrivateFootage

/-- A statistic of a chunk, which may fail. -/
structure Aggregator (α : Type) where
  descriptor : String
  invoke : Chunk α → Outcome (ChunkValue α)

namespace Aggregator

/-- The aggregator for which every chunk is zero. -/
def zero (α : Type) [Scalar α] : Aggregator α where
  descriptor := ""
  invoke _ := .ok (.plain 0)

variable {α : Type} [Analytic α]

/-- The distinct identifiers among sightings, in the order of first appearance. -/
def identifiers (sightings : List (List (Sighting α))) : List Nat :=
  (sightings.flatten.map Sighting.id).eraseDups

/-- Half the number of detections in the first and the last frame. -/
def boundaryCorrection (frames : List (List (Detection α))) : α :=
  match frames.head?, frames.getLast? with
  | some first, some last => Scalar.ofNat (first.length + last.length) * Scalar.half
  | _, _ => 0

/-- The number of distinct objects seen in a chunk, with a correction for those that the ends of the
chunk cut in two. -/
def countTracks (filter : Filter α) (settings : TrackerSettings α) (chunk : Chunk α) :
    ChunkValue α :=
  let frames := chunk.map filter.apply
  let seen := identifiers (Tracker.sightings settings frames)
  .corrected (Scalar.ofNat seen.length) (boundaryCorrection frames)

/-- The aggregator that counts the objects seen. -/
def count (filter : Filter α) (settings : TrackerSettings α) : Aggregator α where
  descriptor := s!"COUNT_{filter.descriptor}_{settings.descriptor}"
  invoke chunk := .ok (countTracks filter settings chunk)

/-- The top edge of an object where it is first seen and where it is last seen. -/
def firstAndLastTop (sightings : List (List (Sighting α))) (id : Nat) : Option (α × α) :=
  let own := sightings.flatten.filter fun sighting => sighting.id = id
  match own.head?, own.getLast? with
  | some first, some last => some (first.box.top, last.box.top)
  | _, _ => none

/-- Whether an object has risen by more than a distance. -/
def hasRisen (minDistance : α) (sightings : List (List (Sighting α))) (id : Nat) : Bool :=
  match firstAndLastTop sightings id with
  | some (first, last) => decide (minDistance < first - last)
  | none => false

/-- The number of objects of a chunk whose top edge rose by more than a distance. -/
def countRisen (filter : Filter α) (settings : TrackerSettings α) (minDistance : α)
    (chunk : Chunk α) : ChunkValue α :=
  let seen := Tracker.sightings settings (chunk.map filter.apply)
  .plain (Scalar.ofNat ((identifiers seen).filter (hasRisen minDistance seen)).length)

/-- The distance that descriptors leave out. -/
def defaultMinDistance : α := Scalar.ofNat 10

/-- The aggregator that counts the objects that moved up. -/
def upward (filter : Filter α) (settings : TrackerSettings α) (minDistance : α) : Aggregator α where
  descriptor :=
    let base := s!"UPWARD_{filter.descriptor}_{settings.descriptor}"
    if minDistance == defaultMinDistance then base
    else base ++ "_MD:" ++ Scalar.plainText minDistance
  invoke chunk := .ok (countRisen filter settings minDistance chunk)

end Aggregator

end PrivateFootage
