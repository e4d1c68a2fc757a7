import PrivateFootage.Scalar

/-!
# Boxes

Axis-parallel boxes given by their left and top edge, width and height, the share of two boxes that
they have in common, and the angle between appearance features.
-/

namespace PrivateFootage

/-- A box in the image. The vertical axis points down. -/
structure Box (α : Type) where
  left : α
  top : α
  width : α
  height : α
deriving DecidableEq, Repr

namespace Box

variable {α : Type} [Scalar α]

/-- The right edge. -/
def right (box : Box α) : α := box.left + box.width

/-- The bottom edge. -/
def bottom (box : Box α) : α := box.top + box.height

/-- The area. -/
def area (box : Box α) : α := box.width * box.height

/-- The four numbers of a box: left, top, width, height. -/
def values (box : Box α) : List α := [box.left, box.top, box.width, box.height]

/-- The four edges of a box: left, top, right, bottom. -/
def edges (box : Box α) : List α := [box.left, box.top, box.right, box.bottom]

/-- The width of the common part of two boxes, each widened by `margin` at its right edge. -/
def sharedWidth (margin : α) (a b : Box α) : α :=
  Scalar.larger (Scalar.smaller a.right b.right - Scalar.larger a.left b.left + margin) 0

/-- The height of the common part of two boxes, each extended by `margin` at its bottom edge. -/
def sharedHeight (margin : α) (a b : Box α) : α :=
  Scalar.larger (Scalar.smaller a.bottom b.bottom - Scalar.larger a.top b.top + margin) 0

/-- The area of the common part of two boxes. -/
def intersection (a b : Box α) : α :=
  Scalar.larger (Scalar.smaller a.right b.right - Scalar.larger a.left b.left) 0 *
    Scalar.larger (Scalar.smaller a.bottom b.bottom - Scalar.larger a.top b.top) 0

/-- The common part of two boxes as a share of what they cover together; zero if they cover
nothing. -/
def overlap (a b : Box α) : α :=
  let shared := intersection a b
  let union := a.area + b.area - shared
  if union ≤ 0 then 0 else shared / union

/-- The share of the second box that the first one covers, counting the pixels on all edges. -/
def coverage (covering covered : Box α) : α :=
  sharedWidth 1 covering covered * sharedHeight 1 covering covered /
    ((covered.right - covered.left + 1) * (covered.bottom - covered.top + 1))

end Box

/-- One less the cosine of the angle between two features; zero if it has no meaning, because a
feature is missing or zero or the lengths differ. -/
def featureDistance {α : Type} [Analytic α] (a b : List α) : α :=
  if a.isEmpty || a.length ≠ b.length then 0
  else
    let dot := Scalar.sum (List.zipWith (· * ·) a b)
    let lengthA := Analytic.sqrt (Scalar.sum (a.map fun x => x * x))
    let lengthB := Analytic.sqrt (Scalar.sum (b.map fun x => x * x))
    if lengthA == 0 || lengthB == 0 then 0 else 1 - dot / (lengthA * lengthB)

end PrivateFootage
