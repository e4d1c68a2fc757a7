import PrivateFootage.Command.Console
import PrivateFootage.Decimation
import PrivateFootage.Double

/-!
# Describing the sampling of frames
-/

namespace PrivateFootage

/-- The average stride. -/
def Decimation.meanStride {α : Type} [Scalar α] (decimation : Decimation) : α :=
  Scalar.ofNat decimation.native / Scalar.ofNat decimation.analysis

namespace Command

/-- Describe the sampling from one rate to another, with the first indices it gives. -/
def describeFrames (native analysis head : Nat) : Console Unit := do
  let decimation ← Console.check (Decimation.ofRates native analysis)
  let covered := decimation.covered
  let (smallest, largest) := decimation.strideRange
  let first := (decimation.samples head).map fun sample => toString sample.1
  Console.print s!"Decimation {native} fps -> {analysis} fps"
  Console.print s!"  Mean stride: {Scalar.fixedText 4 (decimation.meanStride : Float)}"
  Console.print s!"  Stride range: {smallest}..={largest}"
  Console.print s!"  Frames per hour: {decimation.strides.length}"
  Console.print s!"  Native frames covered: {covered} (expected {decimation.nativePerHour})"
  Console.print ("  First frames: " ++ String.intercalate ", " first)
  if covered ≠ decimation.nativePerHour then
    throw (.drift ((covered : Int) - decimation.nativePerHour))

end Command

end PrivateFootage
