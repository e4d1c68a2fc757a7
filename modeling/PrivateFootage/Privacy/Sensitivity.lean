import PrivateFootage.Privacy.Params

/-!
# Sensitivity and noise scale

An object that stays in the scene for a number of frames touches a bounded number of chunks: those
its stay covers when it starts at a chunk's first frame, and one more. Every segment in which an
individual appears counts on its own. The change of a window is bounded by that number of chunks
times the width of the value range, and the scale of the noise is that bound over the budget.
-/

namespace PrivateFootage

/-- The unit a noise scale is given in. -/
inductive NoiseUnit where
  /-- Units of the result. -/
  | chunks
  /-- Multiplied by the frames of a chunk. -/
  | frames
deriving DecidableEq, Repr

namespace NoiseUnit

/-- The name of a unit. -/
def name : NoiseUnit → String
  | .chunks => "chunks"
  | .frames => "frames"

/-- The unit with a name. -/
def ofName? (text : String) : Option NoiseUnit :=
  [NoiseUnit.chunks, .frames].find? fun unit => unit.name = text

/-- Look a given name up as a unit. -/
def lookup (text : String) : Outcome NoiseUnit :=
  let form := String.ofList (Text.lower text.toList)
  match ofName? form with
  | some unit => .ok unit
  | none => .setting (.unknownName .noiseUnit form)

/-- Write a unit as JSON. -/
def toJson (unit : NoiseUnit) : Json := Json.ofText unit.name

/-- Read a unit from JSON. -/
def ofJson? (value : Json) : Option NoiseUnit := value.choice?.bind ofName?

end NoiseUnit

variable {α : Type} [Scalar α]

/-- How many chunks an object can touch that stays for a number of frames. -/
def persistenceChunks (persistence : α) (framesPerChunk : Nat) : Outcome α :=
  if framesPerChunk = 0 then .setting .noFramesPerChunk
  else if !Scalar.isFinite persistence || decide (persistence < 0) then
    .setting (.persistence (Scalar.plainText persistence))
  else .ok (Scalar.ceil (persistence / Scalar.ofNat framesPerChunk) + 1)

/-- How much one individual can change a window. Only sums and means have a bound. -/
def sensitivity (lower upper : Bound α) (persistence : α)
    (segments framesPerChunk chunksPerWindow : Nat) (function : WindowFunction) : Outcome α := do
  if segments = 0 then Outcome.setting .noSegments
  let range := upper.highest - lower.lowest
  let touched := Scalar.ofNat segments * (← persistenceChunks persistence framesPerChunk)
  match function with
  | .sum => .ok (range * touched)
  | .mean =>
    if chunksPerWindow = 0 then .setting .noChunksPerWindow
    else .ok (range * touched / Scalar.ofNat (framesPerChunk * chunksPerWindow))
  | .max | .median => .setting (.noSensitivityBound function.name)

/-- The scale of the noise that hides the change one individual can make. -/
def noiseScale (params : PrivacyParams α) (persistence : α) (framesPerChunk chunksPerWindow : Nat)
    (function : WindowFunction) (unit : NoiseUnit) : Outcome α := do
  let change ← sensitivity params.lower params.upper persistence params.segments framesPerChunk
    chunksPerWindow function
  let scale := change / params.epsilon
  match unit with
  | .chunks => .ok scale
  | .frames => .ok (scale * Scalar.ofNat framesPerChunk)

end PrivateFootage
