import PrivateFootage.Detection.Row

/-!
# Choosing among detections

Rows below a confidence threshold are dropped. Of the others, a detection is dropped if one that
ranks above it covers too large a share of it. Detections rank by confidence, and of two with the
same confidence the later one ranks above.
-/

namespace PrivateFootage

variable {α : Type} [Scalar α]

/-- A detection with its position in the list it comes from. -/
abbrev Placed (α : Type) := Detection α × Nat

/-- Whether one detection ranks above another, or is the same one. -/
def ranksAbove (a b : Placed α) : Bool :=
  if Scalar.precedes a.1.confidence b.1.confidence then
    Scalar.precedes b.1.confidence a.1.confidence && decide (b.2 ≤ a.2)
  else true

/-- Detections with their positions, the highest ranking first. -/
def ranked (detections : List (Detection α)) : List (Placed α) :=
  detections.zipIdx.mergeSort ranksAbove

/-- Keep a detection if none of those already kept covers more of it than allowed. Kept ones are
held in reverse order. -/
def keepUncovered (maxOverlap : α) (kept : List (Placed α)) (next : Placed α) : List (Placed α) :=
  if kept.all fun above => decide (Box.coverage above.1.box next.1.box ≤ maxOverlap) then
    next :: kept
  else kept

/-- The detections that no higher ranking kept one covers by more than `maxOverlap`, with their
positions, the highest ranking first. -/
def suppress (detections : List (Detection α)) (maxOverlap : α) : List (Placed α) :=
  ((ranked detections).foldl (keepUncovered maxOverlap) []).reverse

/-- Which rows become detections. -/
structure Filter (α : Type) where
  confidenceThreshold : α
  maxOverlap : α
deriving DecidableEq, Repr

namespace Filter

/-- The filter used unless another is given. -/
def standard : Filter Float := ⟨0.8, 1⟩

/-- The detections of a frame that pass the filter, the highest ranking first. -/
def apply (filter : Filter α) (rows : Frame α) : List (Detection α) :=
  let confident := rows.filter fun row => decide (filter.confidenceThreshold ≤ row.confidence)
  (suppress (confident.map Row.detection) filter.maxOverlap).map Prod.fst

/-- The text of a filter in descriptors. -/
def descriptor (filter : Filter α) : String :=
  let threshold := Scalar.fixedText 2 filter.confidenceThreshold
  let overlap := Scalar.fixedText 2 filter.maxOverlap
  s!"CF:{threshold}_NMS:{overlap}"

end Filter

end PrivateFootage
