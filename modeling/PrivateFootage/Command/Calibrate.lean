import PrivateFootage.Command.Bounds
import PrivateFootage.Noise.Accuracy
import PrivateFootage.Privacy.Sensitivity

/-!
# Calibrating noise

The noise for given bounds and a given longest stay, without any data.
-/

namespace PrivateFootage.Command

/-- The line for the ribbon of a noise scale. -/
def ribbonText (ribbon : Float) (unit : NoiseUnit) : String :=
  let percent := Scalar.plainText (Noise.ribbonConfidence * 100)
  s!"Ribbon ({percent}%): +/-{Scalar.fixedText 4 ribbon} ({unit.name})"

/-- The privacy parameters of a calibration; bounds for regions set their number. -/
def NoiseArguments.privacy (arguments : NoiseArguments) : Except Failure (PrivacyParams Float) := do
  let params ← arguments.window.privacy
  .ok { params with splitCount := params.lower.splitCount? }

/-- Print the noise for the arguments, and its accuracy if a true value is given. -/
def calibrate (arguments : NoiseArguments) : Console Unit := do
  let window := arguments.window
  let framesPerChunk := window.framesPerChunk
  let chunksPerWindow := window.chunksPerWindow
  let persistence := arguments.persistence
  let function ← Console.check (WindowFunction.lookup window.function)
  let params ← Console.lift arguments.privacy
  Console.check (params.validate .unmasked)
  let sensitivity ← Console.check (sensitivity params.lower params.upper persistence
    params.segments framesPerChunk chunksPerWindow function)
  let scale ← Console.check
    (noiseScale params persistence framesPerChunk chunksPerWindow function .chunks)
  let ribbon ← Console.check (Noise.ribbon scale Noise.ribbonConfidence)
  let touched ← Console.check (persistenceChunks persistence framesPerChunk)
  let shown (value : Float) : String := Scalar.plainText value
  Console.print (s!"Persistence: {shown persistence} frames ({shown touched} chunks, " ++
    s!"{params.segments} segment(s))")
  Console.print s!"Sensitivity: {shown sensitivity}"
  Console.print s!"Noise scale: {shown scale} (epsilon {shown params.epsilon})"
  Console.print (ribbonText ribbon .chunks)
  if window.frameUnits then
    let scaled := scale * Scalar.ofNat framesPerChunk
    Console.print s!"Noise scale: {shown scaled} (frames)"
    let ribbon ← Console.check (Noise.ribbon scaled Noise.ribbonConfidence)
    Console.print (ribbonText ribbon .frames)
  if let some truth := arguments.truth then
    let plan := arguments.monteCarlo
    let accuracy ← Console.check (Noise.monteCarloAccuracy truth scale plan)
    let releases := plan.iterations * plan.samplesPerIteration
    let mean := Scalar.fixedText 4 accuracy.mean
    let deviation := Scalar.fixedText 4 accuracy.deviation
    Console.print s!"Accuracy over {releases} releases: {mean} +/- {deviation}"

end PrivateFootage.Command
