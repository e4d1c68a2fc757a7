import PrivateFootage.Track.Basic

/-!
# Matching detections to tracks

A track and a detection may be matched if their boxes overlap enough and their features point the
same way. Among all such pairs the one with the least cost is matched first, and every later pair
whose track or detection is already taken is passed over. Costs are compared in the total order, and
equal ones by the position of the track and then of the detection.
-/

namespace PrivateFootage

/-- A track and a detection, given by position, that may be matched. -/
structure Candidate (α : Type) where
  cost : α
  track : Nat
  position : Nat
  detection : Detection α
deriving DecidableEq, Repr

namespace Candidate

variable {α : Type} [Analytic α]

/-- The cost of matching a detection to a track, if it is allowed. -/
def cost? (settings : TrackerSettings α) (track : Track α) (detection : Detection α) : Option α :=
  let cost := 1 - Box.overlap track.box detection.box
  if settings.maxBoxDistance < cost then none
  else if settings.maxFeatureDistance < featureDistance track.feature detection.feature then none
  else some cost

/-- Whether one candidate is considered before another, or is the same one. -/
def comesBefore (a b : Candidate α) : Bool :=
  if Scalar.precedes a.cost b.cost then
    if Scalar.precedes b.cost a.cost then
      decide (a.track < b.track ∨ (a.track = b.track ∧ a.position ≤ b.position))
    else true
  else false

/-- All candidates of a tracker and the detections of a frame. -/
def all (tracker : Tracker α) (detections : List (Detection α)) : List (Candidate α) :=
  tracker.tracks.zipIdx.flatMap fun (track, trackPosition) =>
    detections.zipIdx.filterMap fun (detection, position) =>
      (cost? tracker.settings track detection).map fun cost =>
        ⟨cost, trackPosition, position, detection⟩

/-- Whether two candidates share a track or a detection. -/
def conflicts (a b : Candidate α) : Bool :=
  a.track = b.track || a.position = b.position

/-- Match the next candidate unless it conflicts with one that is matched. -/
def take (taken : List (Candidate α)) (next : Candidate α) : List (Candidate α) :=
  if taken.any fun other => conflicts other next then taken else next :: taken

/-- The candidates that are matched, the last one first. -/
def matched (tracker : Tracker α) (detections : List (Detection α)) : List (Candidate α) :=
  ((all tracker detections).mergeSort comesBefore).foldl take []

end Candidate

end PrivateFootage
