import PrivateFootage.Detection.Box
import PrivateFootage.Error

/-!
# Detection rows

A row of a detection file gives the frame it belongs to, a box, a confidence and any number of
further feature values. The appearance feature of a detection starts with its confidence.
-/

namespace PrivateFootage

/-- One row of a detection file. -/
structure Row (α : Type) where
  /-- The frame as it is written. -/
  frame : α
  /-- The frame as an index within its hour. -/
  index : Nat
  box : Box α
  confidence : α
  /-- The values after the confidence. -/
  extra : List α
deriving DecidableEq, Repr

/-- The rows of one sampled frame, in file order. -/
abbrev Frame (α : Type) := List (Row α)

/-- Consecutive sampled frames that are worked on together. -/
abbrev Chunk (α : Type) := List (Frame α)

namespace Row

variable {α : Type} [Scalar α]

/-- Make a row from its values: at least six, the first a frame index. -/
def ofValues : List α → Except RowFault (Row α)
  | frame :: left :: top :: width :: height :: confidence :: extra =>
    match Scalar.index? frame with
    | some index => .ok ⟨frame, index, ⟨left, top, width, height⟩, confidence, extra⟩
    | none => .error (.frameIndex (Scalar.plainText frame))
  | values => .error (.tooShort values.length)

/-- The values of a row, as written. -/
def values (row : Row α) : List α :=
  row.frame :: row.box.values ++ row.confidence :: row.extra

/-- The appearance feature, which includes the confidence. -/
def feature (row : Row α) : List α :=
  row.confidence :: row.extra

end Row

/-- A detection as the tracker takes it. -/
structure Detection (α : Type) where
  box : Box α
  confidence : α
  feature : List α
deriving DecidableEq, Repr

/-- The detection of a row. -/
def Row.detection {α : Type} [Scalar α] (row : Row α) : Detection α :=
  ⟨row.box, row.confidence, row.feature⟩

end PrivateFootage
